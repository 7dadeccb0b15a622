import Newbro.DevicePairing

/-!
# Safety of device pairing

A pairing is claimed once and in time, its token is handed out once, and the token
authenticates the user of the claim. The invariant says where an issued token is: in the
row of its claimed pairing or with the device, and in both cases which session it opens.
-/
namespace Newbro.DevicePairing

open Library Option Table List

variable (env : Env)

structure Law (s : State) : Prop where
  claimedOnce : (s.claims.map (·.pairing)).Nodup
  inTime : ∀ claim ∈ s.claims, ∃ row, s.store.devicePairings.get? claim.pairing = some row ∧
    claim.now < row.expiresAt
  handedOnce : (s.handed.map fun h => env.hashSecret h.deviceCode).Nodup
  authenticates : ∀ h ∈ s.handed, ∃ claim ∈ s.claims, claim.pairing = env.hashSecret h.deviceCode ∧
    (userForToken env s.store (some h.token) = some claim.userId ∨
      env.hashSecret h.token ∈ s.closed ∧ userForToken env s.store (some h.token) = none)

/-- The session that an issued token opens, unless it was signed out. -/
structure Owned (s : State) (token userId : String) : Prop where
  nonempty : token ≠ ""
  user : userId ∈ s.store.users
  drawn : env.hashSecret token ∈ s.drawn
  session : s.store.browserSessions.get? (env.hashSecret token) =
      some ⟨env.hashSecret token, userId⟩ ∨ env.hashSecret token ∈ s.closed

structure Sound (s : State) : Prop where
  codes : (s.store.devicePairings.entries.map (·.userCode)).Nodup
  pending : ∀ row ∈ s.store.devicePairings.entries, row.status = .pending →
    row.deviceCodeHash ∉ s.claims.map (·.pairing)
  claimed : ∀ row ∈ s.store.devicePairings.entries, row.status = .claimed →
    ∀ token, row.issuedToken = some token →
      row.deviceCodeHash ∉ s.handed.map (fun h => env.hashSecret h.deviceCode) ∧
      ∃ claim ∈ s.claims, claim.pairing = row.deviceCodeHash ∧ Owned env s token claim.userId
  claimedOnce : (s.claims.map (·.pairing)).Nodup
  inTime : ∀ claim ∈ s.claims, ∃ row, s.store.devicePairings.get? claim.pairing = some row ∧
    claim.now < row.expiresAt
  handedOnce : (s.handed.map fun h => env.hashSecret h.deviceCode).Nodup
  authenticates : ∀ h ∈ s.handed, ∃ claim ∈ s.claims, claim.pairing = env.hashSecret h.deviceCode ∧
    Owned env s h.token claim.userId
  authenticated : ∀ requestId userId, s.authenticated.lookup requestId = some userId →
    userId ∈ s.store.users
  sessions : ∀ session ∈ s.store.browserSessions.entries, session.tokenHash ∈ s.drawn
  closed : ∀ hash ∈ s.closed, hash ∈ s.drawn ∧ s.store.browserSessions.get? hash = none

variable {s : State} {token userId : String}

theorem Owned.userForToken (h : Sound env s) (howned : Owned env s token userId) :
    userForToken env s.store (some token) = some userId ∨
      env.hashSecret token ∈ s.closed ∧ userForToken env s.store (some token) = none := by
  rw [DevicePairing.userForToken, if_neg howned.nonempty]
  rcases howned.session with hsession | hclosed
  · left
    simp [hsession, howned.user]
  · right
    exact ⟨hclosed, by rw [(h.closed _ hclosed).2]; rfl⟩

theorem Sound.law (h : Sound env s) : Law env s where
  claimedOnce := h.claimedOnce
  inTime := h.inTime
  handedOnce := h.handedOnce
  authenticates handed hhanded := by
    obtain ⟨claim, hclaim, hpairing, howned⟩ := h.authenticates handed hhanded
    exact ⟨claim, hclaim, hpairing, howned.userForToken env h⟩

/-! ## The sessions of drawn tokens -/

/-- What a step may do to sessions and users: no drawn token gets another session. -/
structure Keeps (s s' : State) : Prop where
  users : ∀ user ∈ s.store.users, user ∈ s'.store.users
  drawn : ∀ hash ∈ s.drawn, hash ∈ s'.drawn
  closed : ∀ hash ∈ s.closed, hash ∈ s'.closed
  session : ∀ hash ∈ s.drawn, ∀ session, s.store.browserSessions.get? hash = some session →
    s'.store.browserSessions.get? hash = some session ∨ hash ∈ s'.closed

variable {s' : State}

theorem Keeps.of_same (hstore : s'.store = s.store) (hdrawn : s'.drawn = s.drawn)
    (hclosed : s'.closed = s.closed) : Keeps s s' :=
  ⟨fun _ h => hstore ▸ h, fun _ h => hdrawn ▸ h, fun _ h => hclosed ▸ h,
    fun _ _ _ h => Or.inl (hstore ▸ h)⟩

theorem Owned.keeps (h : Owned env s token userId)
    (hkeeps : Keeps s s') : Owned env s' token userId where
  nonempty := h.nonempty
  user := hkeeps.users _ h.user
  drawn := hkeeps.drawn _ h.drawn
  session := by
    rcases h.session with hsession | hclosed
    · exact hkeeps.session _ h.drawn _ hsession
    · exact Or.inr (hkeeps.closed _ hclosed)

/-- A step that leaves the pairings, the claims and what was handed out. -/
theorem Sound.of_keeps (h : Sound env s) (hkeeps : Keeps s s')
    (hpairings : s'.store.devicePairings = s.store.devicePairings) (hclaims : s'.claims = s.claims)
    (hhanded : s'.handed = s.handed)
    (hauthenticated : ∀ requestId userId, s'.authenticated.lookup requestId = some userId →
      userId ∈ s'.store.users)
    (hsessions : ∀ session ∈ s'.store.browserSessions.entries, session.tokenHash ∈ s'.drawn)
    (hclosed : ∀ hash ∈ s'.closed, hash ∈ s'.drawn ∧ s'.store.browserSessions.get? hash = none) :
    Sound env s' where
  codes := by rw [hpairings]; exact h.codes
  pending := by rw [hpairings, hclaims]; exact h.pending
  claimed row hrow hstatus token htoken := by
    rw [hpairings] at hrow
    obtain ⟨hno, claim, hclaim, hpairing, howned⟩ := h.claimed row hrow hstatus token htoken
    rw [hhanded, hclaims]
    exact ⟨hno, claim, hclaim, hpairing, howned.keeps env hkeeps⟩
  claimedOnce := by rw [hclaims]; exact h.claimedOnce
  inTime := by rw [hclaims, hpairings]; exact h.inTime
  handedOnce := by rw [hhanded]; exact h.handedOnce
  authenticates handed hin := by
    rw [hhanded] at hin
    obtain ⟨claim, hclaim, hpairing, howned⟩ := h.authenticates handed hin
    rw [hclaims]
    exact ⟨claim, hclaim, hpairing, howned.keeps env hkeeps⟩
  authenticated := hauthenticated
  sessions := hsessions
  closed := hclosed

theorem fresh_iff : s.fresh env token = true ↔ token ≠ "" ∧ env.hashSecret token ∉ s.drawn := by
  simp [State.fresh]

theorem Sound.authenticate (h : Sound env s) {requestId : String}
    {cookie : Option String} (huser : userForToken env s.store cookie = some userId) :
    Sound env { s with authenticated := s.authenticated.set requestId userId } := by
  have hmem : userId ∈ s.store.users := by
    cases cookie with
    | none => cases huser
    | some rawToken =>
      simp only [DevicePairing.userForToken] at huser
      split at huser
      · cases huser
      · obtain ⟨session, -, huser⟩ := bind_eq_some_iff.mp huser
        split at huser
        · rename_i hin
          exact some.inj huser ▸ hin
        · cases huser
  refine h.of_keeps env (Keeps.of_same rfl rfl rfl) rfl rfl rfl ?_ h.sessions h.closed
  intro id user hlookup
  rw [Dict.lookup_set] at hlookup
  split at hlookup
  · exact some.inj hlookup ▸ hmem
  · exact h.authenticated id user hlookup

theorem Sound.forget (h : Sound env s) (requestId : String) :
    Sound env { s with authenticated := Table.erase s.authenticated requestId } := by
  refine h.of_keeps env (Keeps.of_same rfl rfl rfl) rfl rfl rfl ?_ h.sessions h.closed
  intro id user hlookup
  rw [Dict.lookup_erase] at hlookup
  split at hlookup
  · cases hlookup
  · exact h.authenticated id user hlookup

theorem Sound.signIn (h : Sound env s)
    (hfresh : s.fresh env token = true) : Sound env (s.signIn env userId token) := by
  obtain ⟨-, hnew⟩ := (fresh_iff env).mp hfresh
  have husers : ∀ user ∈ s.store.users, user ∈ (s.signIn env userId token).store.users := by
    intro user huser
    simp only [State.signIn]
    split
    · exact huser
    · exact mem_append_left _ huser
  have hsame : ∀ hash ∈ s.drawn, (s.signIn env userId token).store.browserSessions.get? hash =
      s.store.browserSessions.get? hash := by
    intro hash hhash
    refine Table.get?_put_of_ne _ ?_
    rintro rfl
    exact hnew hhash
  refine h.of_keeps env ⟨husers, fun _ hd => mem_append_left _ hd, fun _ hc => hc,
    fun hash hd session hs => Or.inl ((hsame hash hd).trans hs)⟩ rfl rfl rfl ?_ ?_ ?_
  · exact fun id user hlookup => husers _ (h.authenticated id user hlookup)
  · refine forall_put (fun session hs => mem_append_left _ (h.sessions session hs)) ?_
    exact mem_append_right _ (mem_singleton_self _)
  · intro hash hhash
    obtain ⟨hd, hnone⟩ := h.closed hash hhash
    exact ⟨mem_append_left _ hd, (hsame hash hd).trans hnone⟩

theorem Sound.signOut (h : Sound env s) (cookie : Option String) :
    Sound env (s.signOut env cookie) := by
  cases cookie with
  | none => exact h
  | some rawToken =>
    rw [State.signOut]
    split
    · exact h
    · rename_i hno
      have hthere : s.store.browserSessions.contains (env.hashSecret rawToken) = true := by
        simpa using (not_or.mp hno).2
      obtain ⟨session, hsession⟩ := isSome_iff_exists.mp hthere
      have hdrawn : env.hashSecret rawToken ∈ s.drawn := by
        have hkey : session.tokenHash = env.hashSecret rawToken := key_of_get? hsession
        exact hkey ▸ h.sessions session (mem_of_get? hsession)
      refine h.of_keeps env ⟨fun _ hu => hu, fun _ hd => hd, fun _ hc => mem_append_left _ hc,
        ?_⟩ rfl rfl rfl h.authenticated ?_ ?_
      · intro hash hd stored hs
        by_cases heq : env.hashSecret rawToken = hash
        · exact Or.inr (mem_append_right _ (by simp [heq]))
        · exact Or.inl ((Table.get?_erase_of_ne _ heq).trans hs)
      · exact fun stored hs => h.sessions stored (mem_erase.mp hs).1
      · intro hash hhash
        rcases mem_append.mp hhash with hhash | hhash
        · obtain ⟨hd, hnone⟩ := h.closed hash hhash
          refine ⟨hd, ?_⟩
          show (s.store.browserSessions.erase (env.hashSecret rawToken)).get? hash = none
          rw [Table.get?_erase, hnone]
          split <;> rfl
        · rw [mem_singleton.mp hhash]
          exact ⟨hdrawn, Table.get?_erase_self _ _⟩

/-! ## The three requests -/

variable {userCode : String} {codes : List String}

theorem allocate_spec {rows made : Table Pairing.deviceCodeHash} {deviceCodeHash : String}
    {expiresAt : Int}
    (h : allocate rows deviceCodeHash expiresAt codes = some (userCode, made)) :
    ∃ row : Pairing, made = rows.put row ∧ row.deviceCodeHash = deviceCodeHash ∧
      row.status = .pending ∧ rows.get? deviceCodeHash = none ∧
      row.userCode ∉ rows.entries.map (fun r => r.userCode) := by
  induction codes with
  | nil => cases h
  | cons code codes ih =>
    rw [allocate] at h
    split at h
    · rename_i inserted hinserted
      rw [insertPairing] at hinserted
      split at hinserted
      · cases hinserted
      · rename_i hno
        simp only [Bool.or_eq_true, not_or, Bool.not_eq_true] at hno
        have hput := (some.inj hinserted).trans (congrArg Prod.snd (some.inj h))
        refine ⟨_, hput.symm, rfl, rfl, ?_, ?_⟩
        · simpa [Table.contains] using hno.1
        · intro hin
          obtain ⟨row, hrow, hcode⟩ := mem_map.mp hin
          have hthere : rows.entries.any (fun r => decide (r.userCode = code)) = true :=
            any_eq_true.mpr ⟨row, hrow, decide_eq_true hcode⟩
          rw [hno.2] at hthere
          cases hthere
    · exact ih h

variable {now : Int} {deviceCode : String} {store : Store}

theorem Sound.pairStart (h : Sound env s)
    {made : DevicePairingStart}
    (hmade : createDevicePairing env s.store now deviceCode codes = .ok (made, store)) :
    Sound env { s with store } := by
  simp only [createDevicePairing] at hmade
  split at hmade
  · cases hmade
  · rename_i userCode rows hrows
    cases hmade
    obtain ⟨row, rfl, hhash, hstatus, hnone, hcode⟩ := allocate_spec hrows
    have hfresh : s.store.devicePairings.get? row.deviceCodeHash = none := hhash ▸ hnone
    have hunclaimed : row.deviceCodeHash ∉ s.claims.map (·.pairing) := by
      intro hin
      obtain ⟨claim, hclaim, hpairing⟩ := mem_map.mp hin
      obtain ⟨old, hold, -⟩ := h.inTime claim hclaim
      rw [hpairing, hfresh] at hold
      cases hold
    refine ⟨?_, ?_, ?_, h.claimedOnce, ?_, h.handedOnce, ?_, h.authenticated, h.sessions, h.closed⟩
    · show ((s.store.devicePairings.put row).entries.map (·.userCode)).Nodup
      rw [map_entries_put_fresh _ hfresh]
      refine nodup_append.mpr ⟨h.codes, nodup_singleton _, ?_⟩
      rintro code hin _ hother rfl
      exact hcode (mem_singleton.mp hother ▸ hin)
    · exact forall_put h.pending fun _ => hunclaimed
    · refine forall_put ?_ fun hclaimed => by rw [hstatus] at hclaimed; cases hclaimed
      intro old hold hclaimed token htoken
      obtain ⟨hno, claim, hclaim, hpairing, howned⟩ := h.claimed old hold hclaimed token htoken
      exact ⟨hno, claim, hclaim, hpairing, howned.keeps env ⟨fun _ hu => hu, fun _ hd => hd,
        fun _ hc => hc, fun _ _ _ hs => Or.inl hs⟩⟩
    · intro claim hclaim
      obtain ⟨old, hold, htime⟩ := h.inTime claim hclaim
      refine ⟨old, ?_, htime⟩
      refine (Table.get?_put_of_ne _ ?_).trans hold
      rintro heq
      exact hunclaimed (heq ▸ mem_map_of_mem hclaim)
    · intro handed hin
      obtain ⟨claim, hclaim, hpairing, howned⟩ := h.authenticates handed hin
      exact ⟨claim, hclaim, hpairing, howned.keeps env ⟨fun _ hu => hu, fun _ hd => hd,
        fun _ hc => hc, fun _ _ _ hs => Or.inl hs⟩⟩

theorem expiresAt_claimRow (userCode userId token : String) (row : Pairing) :
    (claimRow userCode userId token row).expiresAt = row.expiresAt := by
  rw [claimRow]
  split <;> rfl

theorem userCode_claimRow (userCode userId token : String) (row : Pairing) :
    (claimRow userCode userId token row).userCode = row.userCode := by
  rw [claimRow]
  split <;> rfl

variable {row : Pairing}

theorem Sound.claim (h : Sound env s)
    (huser : userId ∈ s.store.users)
    (hfresh : s.fresh env token = true)
    (hclaim : claimDevicePairing env s.store userCode userId token now = .ok (row, store)) :
    Sound env { s with
      store
      claims := s.claims ++ [⟨row.deviceCodeHash, userId, now⟩]
      drawn := s.drawn ++ [env.hashSecret token] } := by
  obtain ⟨hnonempty, hnew⟩ := (fresh_iff env).mp hfresh
  simp only [claimDevicePairing] at hclaim
  split at hclaim
  · cases hclaim
  rename_i found hfound
  split_ifs at hclaim with hstatus hexpired hcontains
  obtain ⟨rfl, rfl⟩ := Prod.mk.inj (Except.ok.inj hclaim)
  have hrow : found ∈ s.store.devicePairings.entries := List.mem_of_find?_eq_some hfound
  have hcode : found.userCode = normalizedCode env userCode := by simpa using List.find?_some hfound
  have hpending : found.status = .pending := not_not.mp hstatus
  have hunclaimed := h.pending found hrow hpending
  have hkeeps : ∀ claims handed authenticated rows, Keeps s
      { store := ⟨rows, s.store.browserSessions.put ⟨env.hashSecret token, userId⟩, s.store.users⟩
        authenticated := authenticated, claims := claims, handed := handed
        drawn := s.drawn ++ [env.hashSecret token], closed := s.closed } := by
    intro claims handed authenticated rows
    refine ⟨fun _ hu => hu, fun _ hd => List.mem_append_left _ hd, fun _ hc => hc, ?_⟩
    intro hash hd session hs
    refine Or.inl ((Table.get?_put_of_ne _ ?_).trans hs)
    rintro rfl
    exact hnew hd
  have hget : ∀ hash, (s.store.devicePairings.mapValues
      (claimRow (normalizedCode env userCode) userId token)
      (deviceCodeHash_claimRow (normalizedCode env userCode) userId token)).get? hash =
        (s.store.devicePairings.get? hash).map
          (claimRow (normalizedCode env userCode) userId token) :=
    Table.get?_mapValues _ _ _
  refine ⟨?_, ?_, ?_, ?_, ?_, h.handedOnce, ?_, h.authenticated, ?_, ?_⟩
  · have hsame : (s.store.devicePairings.entries.map
        (claimRow (normalizedCode env userCode) userId token)).map (fun r => r.userCode) =
          s.store.devicePairings.entries.map (fun r => r.userCode) := by
      rw [List.map_map]
      exact List.map_congr_left fun r _ => userCode_claimRow _ _ _ r
    have hcodes := h.codes
    rw [← hsame] at hcodes
    exact hcodes
  · intro made hmade hstatus hin
    obtain ⟨old, hold, rfl⟩ := List.mem_map.mp hmade
    have hother : old.userCode ≠ normalizedCode env userCode := by
      intro heq
      rw [claimRow, if_pos heq] at hstatus
      cases hstatus
    rw [claimRow, if_neg hother] at hstatus hin
    rw [List.map_append] at hin
    rcases List.mem_append.mp hin with hin | hin
    · exact h.pending old hold hstatus hin
    · have hsame : old = found := s.store.devicePairings.eq_of_key_eq hold hrow
        (List.mem_singleton.mp hin)
      exact hother (hsame ▸ hcode)
  · intro made hmade hstatus issued hissued
    obtain ⟨old, hold, rfl⟩ := List.mem_map.mp hmade
    by_cases heq : old.userCode = normalizedCode env userCode
    · have hsame : old = found :=
        List.inj_on_of_nodup_map h.codes hold hrow (heq.trans hcode.symm)
      rw [claimRow, if_pos heq] at hissued ⊢
      obtain rfl := Option.some.inj hissued
      refine ⟨?_, _, List.mem_append_right _ (List.mem_singleton_self _), ?_, ?_⟩
      · intro hin
        obtain ⟨handed, hhanded, hhash⟩ := List.mem_map.mp hin
        obtain ⟨claim, hclaim, hpairing, -⟩ := h.authenticates handed hhanded
        have hpaired : claim.pairing = found.deviceCodeHash := hsame ▸ hpairing.trans hhash
        exact hunclaimed (hpaired ▸ List.mem_map_of_mem hclaim)
      · show found.deviceCodeHash = old.deviceCodeHash
        rw [hsame]
      · exact ⟨hnonempty, huser, List.mem_append_right _ (List.mem_singleton_self _),
          Or.inl (Table.get?_put_self _ _)⟩
    · rw [claimRow, if_neg heq] at hstatus hissued ⊢
      obtain ⟨hno, claim, hclaim, hpairing, howned⟩ := h.claimed old hold hstatus issued hissued
      exact ⟨hno, claim, List.mem_append_left _ hclaim, hpairing, howned.keeps env (hkeeps _ _ _ _)⟩
  · rw [List.map_append]
    refine List.nodup_append.mpr ⟨h.claimedOnce, List.nodup_singleton _, ?_⟩
    intro pairing hin other hother heq
    have hother : other = found.deviceCodeHash := by simpa using hother
    exact hunclaimed (hother ▸ heq ▸ hin)
  · intro claim hin
    rcases List.mem_append.mp hin with hin | hin
    · obtain ⟨old, hold, htime⟩ := h.inTime claim hin
      exact ⟨_, by rw [hget, hold]; rfl, by rw [expiresAt_claimRow]; exact htime⟩
    · obtain rfl := List.mem_singleton.mp hin
      refine ⟨_, by rw [hget, Table.get?_of_mem hrow]; rfl, ?_⟩
      rw [expiresAt_claimRow]
      simpa [isExpired] using hexpired
  · intro handed hin
    obtain ⟨claim, hclaim, hpairing, howned⟩ := h.authenticates handed hin
    exact ⟨claim, List.mem_append_left _ hclaim, hpairing, howned.keeps env (hkeeps _ _ _ _)⟩
  · refine Table.forall_put (fun session hs => List.mem_append_left _ (h.sessions session hs)) ?_
    exact List.mem_append_right _ (List.mem_singleton_self _)
  · intro hash hin
    obtain ⟨hd, hnone⟩ := h.closed hash hin
    refine ⟨List.mem_append_left _ hd, (Table.get?_put_of_ne _ ?_).trans hnone⟩
    rintro rfl
    exact hnew hd

/-- A poll of a claimed pairing: the row gives up its token. -/
theorem Sound.poll (h : Sound env s)
    (hrow : s.store.devicePairings.get? (env.hashSecret deviceCode) = some row)
    (hstatus : row.status = .claimed) :
    Sound env { s with
      store := { s.store with
        devicePairings := s.store.devicePairings.put { row with issuedToken := none } }
      handed := s.handed ++ row.issuedToken.toList.map fun token => ⟨deviceCode, token⟩ } := by
  have hkey : row.deviceCodeHash = env.hashSecret deviceCode := key_of_get? hrow
  have hmem := mem_of_get? hrow
  have hkeeps : ∀ rows handed, Keeps s { s with
      store := { s.store with devicePairings := rows }, handed := handed } :=
    fun _ _ => ⟨fun _ hu => hu, fun _ hd => hd, fun _ hc => hc, fun _ _ _ hs => Or.inl hs⟩
  refine ⟨?_, ?_, ?_, h.claimedOnce, ?_, ?_, ?_, h.authenticated, h.sessions, h.closed⟩
  · have hsame : (s.store.devicePairings.put { row with issuedToken := none }).entries.map
        (·.userCode) = s.store.devicePairings.entries.map (·.userCode) := by
      refine map_entries_put (w := row) (·.userCode) ?_ rfl
      rw [← hrow, ← hkey]
    exact hsame ▸ h.codes
  · refine forall_put h.pending fun hpending => ?_
    rw [hstatus] at hpending
    cases hpending
  · intro old hold hclaimed token htoken
    rcases mem_put.mp hold with rfl | ⟨hold, hne⟩
    · cases htoken
    · obtain ⟨hno, claim, hclaim, hpairing, howned⟩ := h.claimed old hold hclaimed token htoken
      refine ⟨?_, claim, hclaim, hpairing, howned.keeps env (hkeeps _ _)⟩
      intro hin
      rw [map_append] at hin
      rcases mem_append.mp hin with hin | hin
      · exact hno hin
      · obtain ⟨handed, hhanded, hhash⟩ := mem_map.mp hin
        obtain ⟨given, -, rfl⟩ := mem_map.mp hhanded
        exact hne (hhash.symm.trans hkey.symm)
  · intro claim hclaim
    obtain ⟨old, hold, htime⟩ := h.inTime claim hclaim
    by_cases heq : ({ row with issuedToken := none } : Pairing).deviceCodeHash = claim.pairing
    · refine ⟨{ row with issuedToken := none }, ?_, ?_⟩
      · show (s.store.devicePairings.put _).get? _ = _
        rw [← heq]
        exact Table.get?_put_self _ _
      · have hsame : old = row := by
          rw [← heq, hkey, hrow] at hold
          exact (some.inj hold).symm
        exact hsame ▸ htime
    · exact ⟨old, (Table.get?_put_of_ne _ heq).trans hold, htime⟩
  · rw [map_append]
    refine nodup_append.mpr ⟨h.handedOnce, ?_, ?_⟩
    · cases row.issuedToken with
      | none => exact nodup_nil
      | some token => exact nodup_singleton _
    · rintro hash hin _ hother rfl
      obtain ⟨handed, hhanded, rfl⟩ := mem_map.mp hother
      obtain ⟨token, htoken, rfl⟩ := mem_map.mp hhanded
      exact (h.claimed row hmem hstatus token (mem_toList.mp htoken)).1 (hkey ▸ hin)
  · intro handed hin
    rcases mem_append.mp hin with hin | hin
    · obtain ⟨claim, hclaim, hpairing, howned⟩ := h.authenticates handed hin
      exact ⟨claim, hclaim, hpairing, howned.keeps env (hkeeps _ _)⟩
    · obtain ⟨token, htoken, rfl⟩ := mem_map.mp hin
      obtain ⟨-, claim, hclaim, hpairing, howned⟩ :=
        h.claimed row hmem hstatus token (mem_toList.mp htoken)
      exact ⟨claim, hclaim, hpairing.trans hkey, howned.keeps env (hkeeps _ _)⟩

theorem pollDevicePairing_ok {after : Store}
    {answer : DevicePairingPoll}
    (h : pollDevicePairing env store deviceCode now = .ok (answer, after)) :
    (answer = .pending ∧ after = store) ∨
      ∃ row, store.devicePairings.get? (env.hashSecret deviceCode) = some row ∧
        row.status = .claimed ∧ answer = .claimed row.issuedToken ∧ after = { store with
          devicePairings := store.devicePairings.put { row with issuedToken := none } } := by
  rw [pollDevicePairing] at h
  split at h
  · cases h
  · rename_i row hrow
    split_ifs at h with hstatus hexpired
    · obtain ⟨rfl, rfl⟩ := Prod.mk.inj (Except.ok.inj h)
      exact Or.inl ⟨rfl, rfl⟩
    · obtain ⟨rfl, rfl⟩ := Prod.mk.inj (Except.ok.inj h)
      have hclaimed : row.status = .claimed := by
        cases hrowStatus : row.status with
        | pending => exact absurd hrowStatus hstatus
        | claimed => rfl
      exact Or.inr ⟨row, hrow, hclaimed, rfl, rfl⟩

theorem Sound.step {l : Label} (h : Sound env s)
    (hs : (machine env).step s l = some s') : Sound env s' := by
  cases l with
  | pairStart deviceCode codes now =>
    simp only [machine, DevicePairing.step] at hs
    split at hs
    · cases hs
      exact h
    · rename_i made store hmade
      cases hs
      exact h.pairStart env hmade
  | authenticate requestId cookie =>
    simp only [machine, DevicePairing.step] at hs
    split at hs
    · cases hs
      exact h
    · rename_i userId huser
      cases hs
      exact h.authenticate env huser
  | claim requestId userCode token now =>
    simp only [machine, DevicePairing.step] at hs
    split at hs
    · cases hs
    · rename_i userId hlookup
      split at hs
      · cases hs
      · rename_i hfresh
        have hfresh : s.fresh env token = true := by simpa using hfresh
        split at hs
        · cases hs
          exact h.forget env requestId
        · rename_i row store hclaim
          cases hs
          have huser := h.authenticated requestId userId hlookup
          exact (h.claim env huser hfresh hclaim).forget env requestId
  | poll deviceCode now =>
    simp only [machine, DevicePairing.step] at hs
    split at hs
    · cases hs
      exact h
    · rename_i token store hpoll
      cases hs
      rcases pollDevicePairing_ok env hpoll with ⟨hanswer, -⟩ | ⟨row, hrow, hstatus, hanswer, rfl⟩
      · cases hanswer
      · have hsound := h.poll env hrow hstatus
        rw [← DevicePairingPoll.claimed.inj hanswer] at hsound
        exact hsound
    · rename_i answer store hother hpoll
      cases hs
      rcases pollDevicePairing_ok env hpoll with ⟨-, rfl⟩ | ⟨row, hrow, hstatus, hanswer, rfl⟩
      · exact h
      · have hnone : row.issuedToken = none := by
          cases htoken : row.issuedToken with
          | none => rfl
          | some token =>
            rw [htoken] at hanswer
            exact absurd hanswer (hother token)
        have hsound := h.poll env hrow hstatus
        rw [hnone] at hsound
        simpa using hsound
  | signIn userId token =>
    simp only [machine, DevicePairing.step] at hs
    split at hs
    · cases hs
    · rename_i hfresh
      cases hs
      exact h.signIn env (by simpa using hfresh)
  | signOut cookie =>
    cases hs
    exact h.signOut env cookie

theorem sound_start : Sound env start := by
  refine ⟨nodup_nil, ?_, ?_, nodup_nil, ?_, nodup_nil, ?_, ?_, ?_, ?_⟩
  · exact fun _ h => by cases h
  · exact fun _ h => by cases h
  · exact fun _ h => by cases h
  · exact fun _ h => by cases h
  · exact fun _ _ h => by cases h
  · exact fun _ h => by cases h
  · exact fun _ h => by cases h

/-- Whatever the order of the requests and the times they come at. -/
theorem pairings_are_safe (ls : List Label) : (machine env).Always (Law env) start ls := by
  have hsound : (machine env).Always (Sound env) start ls :=
    ((machine env).along_true start ls).always (sound_start env) fun _ _ _ h _ hs => h.step env hs
  exact hsound.mono fun _ h => h.law env

/-- A pairing from start to end: the second claim is refused, the second poll gets no token. -/
example :
    let env : Env := ⟨id, id⟩
    let ls : List Label :=
      [ .signIn "user-1" "cookie-1", .pairStart "device-1" ["ABCD"] 0,
        .authenticate "request-1" (some "cookie-1"), .authenticate "request-2" (some "cookie-1"),
        .claim "request-1" "ABCD" "token-1" 5, .claim "request-2" "ABCD" "token-2" 6,
        .poll "device-1" 7, .poll "device-1" 8 ]
    ((machine env).run start ls).map (fun s => (s.handed, s.claims)) =
      some ([⟨"device-1", "token-1"⟩], [⟨"device-1", "user-1", 5⟩]) := by
  decide

end Newbro.DevicePairing
