import CubeSandbox.GoText
import CubeSandbox.Runs

/-!
Logins, refreshes and password changes of CubeOps (`service/auth.go`, `store/refresh_token.go`,
`store/setting.go`).

Any number of calls are under way. Each statement to the database is a step of its own and may
fail, with or without having been carried out; a call returns with its last statement.
Signatures cannot be forged, so that a client refreshes with a token that was handed out, and
the identifier of a new token has never been used.
-/

namespace CubeSandbox.Auth

open GoText

inductive AuthErr
  | invalidCredentials
  | invalidOldPassword
  | invalidRefreshToken
  | unauthenticated
  /-- An error with a text of its own, or one that wraps the error of a statement. -/
  | text (s : String)
  deriving DecidableEq

structure Token where
  username : Bytes
  tokenID : Nat
  deriving DecidableEq

/-- The parts of bcrypt that the service uses. -/
structure Env where
  compareHashAndPassword : Bytes → Bytes → Bool
  hashPassword : Bytes → Option Bytes

/-- A stored password that is not a hash is compared as it is. -/
def verifyPassword (env : Env) (stored candidate : Bytes) : Bool :=
  if (ascii "$2").isPrefixOf stored then env.compareHashAndPassword stored candidate
  else stored == candidate

/-- The answer to a statement. One that fails may have been carried out. -/
inductive Reply
  | ok
  | failed (applied : Bool)
  deriving DecidableEq

def Reply.applied : Reply → Bool
  | ok => true
  | failed applied => applied

/-- A row of `t_refresh_token`. -/
structure Row where
  username : Bytes
  revoked : Bool

abbrev Rows := KMap Nat Row

/-- An insertion that ignores a row that is there already. -/
def createRefreshToken (rows : Rows) (tokenID : Nat) (username : Bytes) : Rows :=
  if (rows tokenID).isSome then rows else rows.set tokenID ⟨username, false⟩

/-- A token that has no row counts as not revoked. -/
def isRefreshTokenRevoked (rows : Rows) (tokenID : Nat) : Bool :=
  (rows tokenID).any (·.revoked)

def revokeRefreshToken (rows : Rows) (tokenID : Nat) : Rows :=
  fun id => (rows id).map fun r => if id = tokenID then { r with revoked := true } else r

def revokeAllRefreshTokensForUser (rows : Rows) (username : Bytes) : Rows :=
  fun id => (rows id).map fun r => if r.username = username then { r with revoked := true } else r

inductive Result
  | tokens (refreshToken : Token)
  | changed
  | error (e : AuthErr)

/-- A call before its next statement. -/
inductive Call
  | loginRead (username password : Bytes)
  | loginCreate (username : Bytes) (tokenID : Nat)
  | refreshCheck (token : Token)
  | refreshCreate (token : Token) (newTokenID : Nat)
  | refreshRevoke (token : Token) (newTokenID : Nat)
  | changeRead (username oldPassword newPassword : Bytes)
  | changeSet (username newHash : Bytes)
  | changeRevoke (username : Bytes)
  | done (result : Result)

structure World where
  /-- `t_system_user`. -/
  users : KMap Bytes Bytes
  rows : Rows
  calls : List Call
  drawn : List Nat
  issued : List Token
  exchanged : List Nat
  /-- Tokens that a password change must have ended: earlier ones of its user, and their heirs. -/
  ended : List Nat
  /-- Ended tokens that were exchanged. -/
  misused : List Nat

inductive Event
  | login (username password : Bytes)
  /-- A refresh with a token that was handed out; it may have expired. -/
  | refresh (token : Token) (expired : Bool)
  /-- A refresh with something else. -/
  | refreshForged (empty : Bool)
  | changePassword (username oldPassword newPassword : Bytes)
  /-- A call makes its next statement; `fresh` is the identifier drawn afterwards, or the token that
  could not be generated. -/
  | go (i : Nat) (reply : Reply) (fresh : Except String Nat)

namespace World

def push (w : World) (c : Call) : World := { w with calls := w.calls ++ [c] }

def put (w : World) (i : Nat) (c : Call) : World := { w with calls := w.calls.set i c }

def fail (w : World) (i : Nat) (e : AuthErr) : World := w.put i (.done (.error e))

def withRows (w : World) (rows : Rows) : World := { w with rows := rows }

/-- A new identifier for the next place of a call. -/
def draw (w : World) (i : Nat) (fresh : Except String Nat) (next : Nat → Call) : Option World :=
  match fresh with
  | .error t => some (w.fail i (.text t))
  | .ok id => if id ∈ w.drawn then none else some { w.put i (next id) with drawn := id :: w.drawn }

/-- A token is handed out. What is obtained from an ended token is ended. -/
def issue (w : World) (i : Nat) (token : Token) : World :=
  { w.put i (.done (.tokens token)) with issued := token :: w.issued }

def exchange (w : World) (token : Token) (newTokenID : Nat) : World :=
  { w with
    exchanged := w.exchanged ++ [token.tokenID]
    misused := if token.tokenID ∈ w.ended then w.misused ++ [token.tokenID] else w.misused
    ended := if token.tokenID ∈ w.ended then newTokenID :: w.ended else w.ended }

/-- A password change has returned. -/
def close (w : World) (i : Nat) (username : Bytes) : World :=
  { w.put i (.done .changed) with
    ended := (w.issued.filter (·.username = username)).map (·.tokenID) ++ w.ended }

/-- What `GetUserPassword` returns: nothing as well if the statement fails. -/
def getUserPassword (w : World) (reply : Reply) (username : Bytes) : Bytes :=
  if reply = .ok then (w.users username).getD [] else []

end World

def advance (env : Env) (w : World) (i : Nat) (reply : Reply) (fresh : Except String Nat) :
    Call → Option World
  | .loginRead username password =>
    if verifyPassword env (w.getUserPassword reply username) password then
      w.draw i fresh (.loginCreate username)
    else some (w.fail i .invalidCredentials)
  | .loginCreate username tokenID =>
    let w := if reply.applied then w.withRows (createRefreshToken w.rows tokenID username) else w
    if reply = .ok then some (w.issue i ⟨username, tokenID⟩)
    else some (w.fail i (.text "persist refresh token"))
  | .refreshCheck token =>
    if reply ≠ .ok then some (w.fail i (.text "check refresh token revocation"))
    else if isRefreshTokenRevoked w.rows token.tokenID then some (w.fail i .invalidRefreshToken)
    else w.draw i fresh (.refreshCreate token)
  | .refreshCreate token newTokenID =>
    let w := if reply.applied then
        w.withRows (createRefreshToken w.rows newTokenID token.username) else w
    if reply = .ok then some (w.put i (.refreshRevoke token newTokenID))
    else some (w.fail i (.text "persist new refresh token"))
  | .refreshRevoke token newTokenID =>
    -- the error of the revocation is ignored
    let w := if reply.applied then w.withRows (revokeRefreshToken w.rows token.tokenID) else w
    some ((w.exchange token newTokenID).issue i ⟨token.username, newTokenID⟩)
  | .changeRead username oldPassword newPassword =>
    if !verifyPassword env (w.getUserPassword reply username) oldPassword then
      some (w.fail i .invalidOldPassword)
    else
      match env.hashPassword newPassword with
      | none => some (w.fail i (.text "hash password"))
      | some newHash => some (w.put i (.changeSet username newHash))
  | .changeSet username newHash =>
    let known := (w.users username).isSome
    let w := if reply.applied && known then { w with users := w.users.set username newHash } else w
    if reply = .ok ∧ known then some (w.put i (.changeRevoke username))
    else some (w.fail i (.text "update password"))
  | .changeRevoke username =>
    -- and so is this one
    let w := if reply.applied then w.withRows (revokeAllRefreshTokensForUser w.rows username)
      else w
    some (w.close i username)
  | .done _ => none

def step (env : Env) (w : World) : Event → Option World
  | .login username password =>
    some <| w.push <| if username = [] ∨ password = [] then
        .done (.error (.text "username and password are required"))
      else .loginRead username password
  | .refresh token expired =>
    if token ∈ w.issued then
      some (w.push (if expired then .done (.error .invalidRefreshToken) else .refreshCheck token))
    else none
  | .refreshForged empty =>
    some <| w.push <| .done <| .error <|
      if empty then .text "refreshToken is required" else .invalidRefreshToken
  | .changePassword username oldPassword newPassword =>
    some <| w.push <| if username = [] then .done (.error .unauthenticated)
      else if oldPassword = [] ∨ newPassword = [] then
        .done (.error (.text "oldPassword and newPassword are required"))
      else if newPassword.length < 4 then
        .done (.error (.text "new password must be at least 4 characters"))
      else .changeRead username oldPassword newPassword
  | .go i reply fresh => (w.calls[i]?).bind (advance env w i reply fresh)

/-- Users are there, tokens are not. -/
def start (users : KMap Bytes Bytes) : World := ⟨users, .empty, [], [], [], [], [], []⟩

/-- No token was exchanged twice, and none after it was ended. -/
structure Safe (w : World) : Prop where
  once : w.exchanged.Nodup
  ended : w.misused = []

/-- The token that a refresh has found not revoked and has not revoked yet. -/
def Call.exchanging : Call → Option Token
  | .refreshCreate token _ | .refreshRevoke token _ => some token
  | _ => none

/-- The condition on the statement of a call. -/
def OrderlyAt (w : World) (reply : Reply) : Call → Prop
  | .refreshCheck token => ∀ c ∈ w.calls, c.exchanging.all (·.tokenID ≠ token.tokenID) = true
  | .refreshRevoke _ _ => reply.applied = true
  | .changeRevoke username =>
    reply.applied = true ∧ ∀ c ∈ w.calls, c.exchanging.all (·.username ≠ username) = true
  | _ => True

instance (w : World) (reply : Reply) (c : Call) : Decidable (OrderlyAt w reply c) := by
  cases c <;> unfold OrderlyAt <;> infer_instance

/-- Revocations work, and between the check of a refresh and its end no other refresh checks its
token and no password change of its user revokes. -/
def Orderly (w : World) : Event → Prop
  | .go i reply _ => ∀ c ∈ w.calls[i]?, OrderlyAt w reply c
  | _ => True

instance (w : World) (e : Event) : Decidable (Orderly w e) := by
  cases e <;> unfold Orderly <;> infer_instance

end CubeSandbox.Auth
