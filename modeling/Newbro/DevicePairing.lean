import Newbro.Library.Table
import Newbro.Library.Text
import Newbro.Library.Transition

/-!
# Device pairing

A device asks for a pairing and polls it, a signed-in user claims it by its short code:
`create_device_pairing`, `claim_device_pairing` and `poll_device_pairing` of
`api/public_auth.py` with the routes of `api/routes/devices.py`. Each call is one
transaction under the lock of the store; the claim route looks its user up in a call
before. Times are in microseconds.
-/
namespace Newbro.DevicePairing

open Library

/-- SHA-256 of a secret in hexadecimal digits, and `str.upper`. -/
structure Env where
  hashSecret : String → String
  upper : String → String

inductive PairingStatus where
  | pending | claimed
  deriving Repr, DecidableEq

/-- A row of `device_pairings`. -/
structure Pairing where
  deviceCodeHash : String
  userCode : String
  userId : Option String := none
  issuedToken : Option String := none
  status : PairingStatus := .pending
  expiresAt : Int
  deriving Repr, DecidableEq

/-- A row of `browser_sessions`. -/
structure BrowserSession where
  tokenHash : String
  userId : String
  deriving Repr, DecidableEq

structure Store where
  devicePairings : Table Pairing.deviceCodeHash
  browserSessions : Table BrowserSession.tokenHash
  users : List String

def pairingTtl : Int := 600 * 1000000

def isExpired (expiresAt now : Int) : Bool := expiresAt ≤ now

structure DevicePairingStart where
  deviceCode : String
  userCode : String
  interval : Nat := 2
  expiresAt : Int

inductive DevicePairingPoll where
  | pending
  | claimed (token : Option String)
  deriving Repr, DecidableEq

/-- `INSERT INTO device_pairings`, with its primary key and its unique user code. -/
def insertPairing (rows : Table Pairing.deviceCodeHash) (row : Pairing) :
    Option (Table Pairing.deviceCodeHash) :=
  if rows.contains row.deviceCodeHash || rows.entries.any fun r => r.userCode = row.userCode then none
  else some (rows.put row)

/-- The loop over the user codes that are drawn: the first that can be inserted. -/
def allocate (rows : Table Pairing.deviceCodeHash) (deviceCodeHash : String) (expiresAt : Int) :
    List String → Option (String × Table Pairing.deviceCodeHash)
  | [] => none
  | userCode :: codes =>
    match insertPairing rows { deviceCodeHash, userCode, expiresAt } with
    | some rows => some (userCode, rows)
    | none => allocate rows deviceCodeHash expiresAt codes

variable (env : Env)

variable (store : Store)

def createDevicePairing (now : Int) (deviceCode : String) (codes : List String) :
    Except String (DevicePairingStart × Store) :=
  let expiresAt := now + pairingTtl
  match allocate store.devicePairings (env.hashSecret deviceCode) expiresAt (codes.take 10) with
  | none => .error "Could not allocate a pairing code."
  | some (userCode, devicePairings) =>
    .ok ({ deviceCode, userCode, expiresAt }, { store with devicePairings })

variable (userCode userId token : String)

/-- `UPDATE device_pairings SET status = 'claimed', ... WHERE user_code = ?`, for one row. -/
def claimRow (row : Pairing) : Pairing :=
  if row.userCode = userCode then
    { row with status := .claimed, userId := some userId, issuedToken := some token }
  else row

theorem deviceCodeHash_claimRow (row : Pairing) :
    (claimRow userCode userId token row).deviceCodeHash = row.deviceCodeHash := by
  rw [claimRow]
  split <;> rfl

def normalizedCode : String := env.upper (Text.strip userCode)

def claimDevicePairing (now : Int) :
    Except String (Pairing × Store) :=
  let normalized := normalizedCode env userCode
  match store.devicePairings.entries.find? fun row => row.userCode = normalized with
  | none => .error "Invalid pairing code."
  | some row =>
    if row.status ≠ .pending then .error "Pairing code already used."
    else if isExpired row.expiresAt now = true then .error "Pairing code expired."
    else if store.browserSessions.contains (env.hashSecret token) = true then
      .error "UNIQUE constraint failed: browser_sessions.token_hash"
    else
      .ok (row, { store with
        browserSessions := store.browserSessions.put ⟨env.hashSecret token, userId⟩
        devicePairings := store.devicePairings.mapValues (claimRow normalized userId token)
          (deviceCodeHash_claimRow normalized userId token) })

def pollDevicePairing (deviceCode : String) (now : Int) :
    Except String (DevicePairingPoll × Store) :=
  match store.devicePairings.get? (env.hashSecret deviceCode) with
  | none => .error "Unknown pairing."
  | some row =>
    if row.status = .pending then
      if isExpired row.expiresAt now = true then .error "Pairing code expired."
      else .ok (.pending, store)
    else
      .ok (.claimed row.issuedToken,
        { store with devicePairings := store.devicePairings.put { row with issuedToken := none } })

def userForToken : Option String → Option String
  | none => none
  | some rawToken =>
    if rawToken = "" then none
    else (store.browserSessions.get? (env.hashSecret rawToken)).bind fun session =>
      if session.userId ∈ store.users then some session.userId else none

/-! ## Runs -/

/-- A pairing that a user has claimed, and when. -/
structure Claim where
  pairing : String
  userId : String
  now : Int
  deriving Repr, DecidableEq

/-- A token that a device was given. -/
structure Handed where
  deviceCode : String
  token : String
  deriving Repr, DecidableEq

/-- The store, the claim requests whose user is known, and histories: the claims, the tokens
handed out, the hashes of all session tokens drawn, and of those that were signed out. -/
structure State where
  store : Store
  authenticated : Dict String String
  claims : List Claim
  handed : List Handed
  drawn : List String
  closed : List String

inductive Label where
  | pairStart (deviceCode : String) (codes : List String) (now : Int)
  | authenticate (requestId : String) (cookie : Option String)
  | claim (requestId userCode token : String) (now : Int)
  | poll (deviceCode : String) (now : Int)
  /-- `signup_with_fixed_code` and `redeem_invite`: a session of an old or a new user. -/
  | signIn (userId token : String)
  | signOut (cookie : Option String)
  deriving Repr, DecidableEq

variable (s : State)

/-- A session token is drawn from 256 random bits: it is not empty, and no earlier one has
its hash. -/
def State.fresh (token : String) : Bool :=
  token ≠ "" && !s.drawn.contains (env.hashSecret token)

def State.signOut : Option String → State
  | none => s
  | some rawToken =>
    if rawToken = "" ∨ s.store.browserSessions.contains (env.hashSecret rawToken) = false then s
    else { s with
      store := { s.store with
        browserSessions := s.store.browserSessions.erase (env.hashSecret rawToken) }
      closed := s.closed ++ [env.hashSecret rawToken] }

def State.signIn (userId token : String) : State :=
  { s with
    store := { s.store with
      users := if userId ∈ s.store.users then s.store.users else s.store.users ++ [userId]
      browserSessions := s.store.browserSessions.put ⟨env.hashSecret token, userId⟩ }
    drawn := s.drawn ++ [env.hashSecret token] }

def step : Label → Option State
  | .pairStart deviceCode codes now =>
    match createDevicePairing env s.store now deviceCode codes with
    | .error _ => some s
    | .ok (_, store) => some { s with store }
  | .authenticate requestId cookie =>
    match userForToken env s.store cookie with
    | none => some s
    | some userId => some { s with authenticated := s.authenticated.set requestId userId }
  | .claim requestId userCode token now =>
    match s.authenticated.lookup requestId with
    | none => none
    | some userId =>
      if s.fresh env token = false then none
      else
        match claimDevicePairing env s.store userCode userId token now with
        | .error _ => some { s with authenticated := Table.erase s.authenticated requestId }
        | .ok (row, store) =>
          some { s with
            store
            authenticated := Table.erase s.authenticated requestId
            claims := s.claims ++ [⟨row.deviceCodeHash, userId, now⟩]
            drawn := s.drawn ++ [env.hashSecret token] }
  | .poll deviceCode now =>
    match pollDevicePairing env s.store deviceCode now with
    | .error _ => some s
    | .ok (.claimed (some token), store) =>
      some { s with store, handed := s.handed ++ [⟨deviceCode, token⟩] }
    | .ok (_, store) => some { s with store }
  | .signIn userId token => if s.fresh env token = false then none else some (s.signIn env userId token)
  | .signOut cookie => some (s.signOut env cookie)

def start : State := ⟨⟨Table.empty, Table.empty, []⟩, Table.empty, [], [], [], []⟩

def machine : System State Label where
  initial s := s = start
  step := step env

end Newbro.DevicePairing
