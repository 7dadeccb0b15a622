import Newbro.PairingSafety

/-!
# The device that is paired

`PairingMachine` of the handheld and the loop around it (`runPairing`), which asks for a pairing
until one is answered and then polls until an answer brings a token. Requests and answers may be
lost; a request that is lost changes nothing.
-/
namespace Newbro.DevicePairing

open Library Option List

inductive PairState where
  | idle | awaitingStart | polling | claimed | expired | failed
  deriving DecidableEq

structure PairingMachine where
  state : PairState := .idle
  userCode : String := ""
  deviceCode : String := ""
  token : String := ""

variable (m : PairingMachine)

def PairingMachine.onStart (s : DevicePairingStart) : PairingMachine :=
  { m with deviceCode := s.deviceCode, userCode := s.userCode, state := .polling }

/-- A token that is null in the answer is read as an empty one. -/
def PairingMachine.onPoll : DevicePairingPoll → PairingMachine
  | .claimed (some token) => if token = "" then m else { m with token, state := .claimed }
  | .claimed none | .pending => m

/-- The server, and a device that has begun to pair. -/
structure Pair where
  server : State
  device : PairingMachine

inductive PairLabel where
  /-- Whatever others ask of the server. -/
  | others (label : Label)
  | start (deviceCode : String) (codes : List String) (now : Int) (arrives : Bool)
  | poll (now : Int) (arrives : Bool)

variable (env : Env) (p : Pair)

def Pair.step : PairLabel → Option Pair
  | .others label => (DevicePairing.step env p.server label).map ({ p with server := · })
  | .start deviceCode codes now arrives =>
    if p.device.state ≠ .awaitingStart then none
    else (DevicePairing.step env p.server (.pairStart deviceCode codes now)).map fun server =>
      match createDevicePairing env p.server.store now deviceCode codes, arrives with
      | .ok (answer, _), true => ⟨server, p.device.onStart answer⟩
      | _, _ => { p with server }
  | .poll now arrives =>
    if p.device.state ≠ .polling then none
    else (DevicePairing.step env p.server (.poll p.device.deviceCode now)).map fun server =>
      match pollDevicePairing env p.server.store p.device.deviceCode now, arrives with
      | .ok (answer, _), true => ⟨server, p.device.onPoll answer⟩
      | _, _ => { p with server }

def pairSystem : System Pair PairLabel where
  initial p := p = ⟨start, { state := .awaitingStart }⟩
  step := Pair.step env

variable {env p} {p' : Pair}

theorem handed_step {s s' : State} {l : Label} (hs : DevicePairing.step env s l = some s')
    {h : Handed} (hmem : h ∈ s.handed) : h ∈ s'.handed := by
  cases l <;> simp only [DevicePairing.step] at hs <;> (repeat' split at hs) <;>
    cases hs <;> first | exact hmem | exact mem_append_left _ hmem | skip
  rw [State.signOut.eq_def]
  repeat' split
  all_goals exact hmem

/-- The device changes with an answer only, and is paired by one that hands its token out. -/
theorem Pair.step_cases {l : PairLabel} (hs : p.step env l = some p') :
    (∃ label, DevicePairing.step env p.server label = some p'.server) ∧
      (p'.device = p.device ∨ p.device.state = .awaitingStart ∧ p'.device.state = .polling ∨
        p.device.state = .polling ∧ ∃ row token, token ≠ "" ∧
          p.server.store.devicePairings.get? (env.hashSecret p.device.deviceCode) = some row ∧
          row.status = .claimed ∧ row.issuedToken = some token ∧
          ⟨p.device.deviceCode, token⟩ ∈ p'.server.handed ∧
          p'.device = { p.device with token, state := .claimed }) := by
  cases l with
  | others label =>
    obtain ⟨server, hserver, rfl⟩ := map_eq_some_iff.mp hs
    exact ⟨⟨label, hserver⟩, .inl rfl⟩
  | start deviceCode codes now arrives =>
    simp only [Pair.step] at hs
    split at hs
    · cases hs
    · rename_i hstate
      obtain ⟨server, hserver, rfl⟩ := map_eq_some_iff.mp hs
      split
      · exact ⟨⟨_, hserver⟩, .inr (.inl ⟨not_not.mp hstate, rfl⟩)⟩
      · exact ⟨⟨_, hserver⟩, .inl rfl⟩
  | poll now arrives =>
    simp only [Pair.step] at hs
    split at hs
    · cases hs
    · rename_i hstate
      obtain ⟨server, hserver, rfl⟩ := map_eq_some_iff.mp hs
      split
      · rename_i answer store hpoll
        refine ⟨⟨_, hserver⟩, ?_⟩
        rcases pollDevicePairing_ok env hpoll with ⟨rfl, -⟩ | ⟨row, hrow, hclaimed, rfl, -⟩
        · exact .inl rfl
        · cases htoken : row.issuedToken with
          | none => exact .inl rfl
          | some token =>
            by_cases hempty : token = ""
            · exact .inl (if_pos hempty)
            · rw [htoken] at hpoll
              simp only [DevicePairing.step, hpoll, Option.some_inj] at hserver
              refine .inr (.inr ⟨not_not.mp hstate, row, token, hempty, hrow, hclaimed, htoken, ?_,
                if_neg hempty⟩)
              exact hserver ▸ mem_append_right _ (mem_singleton_self _)
      · exact ⟨⟨_, hserver⟩, .inl rfl⟩

/-- The token of the device has been handed out for its own code. -/
structure Pair.Sound (env : Env) (p : Pair) : Prop where
  server : DevicePairing.Sound env p.server
  token : p.device.state = .claimed → ⟨p.device.deviceCode, p.device.token⟩ ∈ p.server.handed

theorem Pair.Sound.step {l : PairLabel} (h : p.Sound env) (hs : p.step env l = some p') :
    p'.Sound env := by
  obtain ⟨⟨label, hserver⟩, hdevice⟩ := Pair.step_cases hs
  refine ⟨h.server.step env hserver, fun hclaimed => ?_⟩
  rcases hdevice with heq | ⟨-, hpolling⟩ | ⟨-, row, token, -, -, -, -, hhanded, heq⟩
  · rw [heq] at hclaimed ⊢
    exact handed_step hserver (h.token hclaimed)
  · rw [hpolling] at hclaimed
    cases hclaimed
  · rw [heq]
    exact hhanded

theorem pair_sound_start : Pair.Sound env ⟨start, { state := .awaitingStart }⟩ :=
  ⟨sound_start env, fun h => by cases h⟩

theorem pair_sound_always (ls : List PairLabel) :
    (pairSystem env).Always (Pair.Sound env) ⟨start, { state := .awaitingStart }⟩ ls :=
  ((pairSystem env).along_true _ ls).always pair_sound_start fun _ _ _ h _ hs => h.step hs

/-- A paired device holds a token of the user who claimed its code, whatever has been lost. -/
theorem paired_device_authenticates (env : Env) (ls : List PairLabel) :
    (pairSystem env).Always (fun p => p.device.state = .claimed → ∃ claim ∈ p.server.claims,
      claim.pairing = env.hashSecret p.device.deviceCode ∧
        (userForToken env p.server.store (some p.device.token) = some claim.userId ∨
          env.hashSecret p.device.token ∈ p.server.closed ∧
            userForToken env p.server.store (some p.device.token) = none))
      ⟨start, { state := .awaitingStart }⟩ ls :=
  (pair_sound_always ls).mono fun _ h hclaimed => (h.server.law env).authenticates _ (h.token hclaimed)

/-- Once the answer with the token is lost, the device polls for ever. -/
theorem lost_token_never_pairs (env : Env) (ls : List PairLabel) :
    (pairSystem env).Always (fun p => p.device.state = .polling →
      env.hashSecret p.device.deviceCode ∈ p.server.handed.map (env.hashSecret ·.deviceCode) →
      ∀ more, (pairSystem env).Always (fun p' => p'.device.state = .polling) p more)
      ⟨start, { state := .awaitingStart }⟩ ls := by
  refine (pair_sound_always ls).mono fun p h hpolling hlost more => ?_
  let Lost (p : Pair) : Prop := p.Sound env ∧ p.device.state = .polling ∧
    env.hashSecret p.device.deviceCode ∈ p.server.handed.map (env.hashSecret ·.deviceCode)
  have hlost : Lost p := ⟨h, hpolling, hlost⟩
  have halways : (pairSystem env).Always Lost p more := by
    refine ((pairSystem env).along_true p more).always hlost fun p l p' h _ hs => ?_
    obtain ⟨hsound, hpolling, hlost⟩ := h
    obtain ⟨⟨label, hserver⟩, hdevice⟩ := Pair.step_cases hs
    rcases hdevice with heq | ⟨hstate, -⟩ | ⟨-, row, token, -, hrow, hclaimed, htoken, -, -⟩
    · refine ⟨hsound.step hs, heq ▸ hpolling, ?_⟩
      obtain ⟨given, hgiven, hhash⟩ := List.mem_map.mp hlost
      exact List.mem_map.mpr ⟨given, handed_step hserver hgiven, heq ▸ hhash⟩
    · rw [hpolling] at hstate
      cases hstate
    · have hnew := (hsound.server.claimed row (Table.mem_of_get? hrow) hclaimed token htoken).1
      rw [Table.key_of_get? hrow] at hnew
      exact absurd hlost hnew
  exact halways.mono fun _ h => h.2.1

end Newbro.DevicePairing
