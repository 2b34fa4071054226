import Mathlib.Data.Countable.Basic
import Mathlib.Logic.Equiv.List
import Mathlib.Tactic.Linarith
import RealtimeEngine.Config
import RealtimeEngine.Transport.Envelope

/-! Session tokens (`internal/service/session/token.go`, `transport/httpapi/auth.go`,
`transport/ws/handshake.go`). `POST /session` issues a token that names a player and a
new session; a WebSocket request that carries the token is that player's until the
token expires. Signing, parsing, dates and their check are those of the JWT library, given
by what it guarantees: parsing with the same secret gives back the claims that were signed,
a date is cut down to a whole second, and claims are good before the date they expire at. -/
namespace RealtimeEngine.Session
open Foundations Domain Transport
set_option autoImplicit false
set_option maxHeartbeats 250000

/-! ## Tokens -/

/-- Dates are whole seconds since 1970. -/
structure Claims where
  subject : String
  id : String
  issuedAt : Option ℤ
  expiresAt : Option ℤ
  playerID : PlayerID
  deriving DecidableEq

/-- The time that a date stands for. -/
def ofNumericDate (date : ℤ) : Time := unixEpoch + date * second

/-- The JWT library: `SignedString`, the part of `ParseWithClaims` that checks the
signature with a method of the HMAC family, `NewNumericDate`, and the validation of the
claims. A token is never empty and has no space in it; a date is the last whole second
that is not after the time; claims with an expiry are valid exactly before it, since the
other dates are not looked at by default. -/
structure Jwt where
  sign : String → Claims → String
  parse : String → String → Option Claims
  numericDate : Time → ℤ
  valid : Time → Claims → Bool
  parse_sign : ∀ secret claims, parse secret (sign secret claims) = some claims
  solid : ∀ secret claims, sign secret claims ≠ "" ∧ ' ' ∉ (sign secret claims).toList
  date_le : ∀ t, ofNumericDate (numericDate t) ≤ t
  lt_date : ∀ t, t < ofNumericDate (numericDate t) + second
  valid_iff : ∀ now claims date, claims.expiresAt = some date →
    (valid now claims = true ↔ now < ofNumericDate date)

structure Issuer where
  secret : String
  ttl : Duration

section Tokens
variable (jwt : Jwt) (iss : Issuer)

/-- The claims of a token for a new session. -/
def Issuer.claims (now : Time) (sessionID : String) (playerID : PlayerID) : Claims where
  subject := playerID
  id := sessionID
  issuedAt := some (jwt.numericDate now)
  expiresAt := some (jwt.numericDate (now + iss.ttl))
  playerID := playerID

def Issuer.issue (now : Time) (sessionID : String) (playerID : PlayerID) : String :=
  jwt.sign iss.secret (iss.claims jwt now sessionID playerID)

def Issuer.verify (now : Time) (token : String) : Option Claims :=
  (jwt.parse iss.secret token).filter (jwt.valid now)

/-! ## Requests -/

/-- What the handshake reads: the `Authorization` header and the `token` parameter,
empty when they are not there. -/
structure Request where
  authorization : String := ""
  token : String := ""

def bearer : List Char := "Bearer ".toList

def extractToken (r : Request) : String :=
  if r.authorization ≠ "" then
    match bearer.isPrefixOf? r.authorization.toList with
    | some rest => String.ofList rest
    | none => r.authorization
  else r.token

def authenticate (now : Time) (r : Request) : Option Claims :=
  if extractToken r = "" then none else iss.verify jwt now (extractToken r)

/-! ## `POST /session` -/

structure SessionResponse where
  playerID : PlayerID
  sessionID : String
  token : String
  expiresAt : ℤ

/-- `playerId` as far as the body could be decoded: an error is ignored, and what was
stored before it stays. -/
def requestedPlayer (body : RawMessage) : PlayerID :=
  ((Json.structFields body).getD []).foldl (fun acc kv =>
    if Json.foldName kv.1 = Json.foldName "playerId" then (Json.decodeStr acc kv.2).getD acc
    else acc) ""

/-- The two identifiers are new ULIDs; the clock is read when the token is made and once
more, at `later`, for the response. Only `POST` is served. -/
def serveHTTP (method : String) (body : RawMessage) (playerULID sessionID : String)
    (now later : Time) : Option SessionResponse :=
  if method ≠ "POST" then none
  else
    let requested := requestedPlayer body
    let playerID := if requested = "" then "player-" ++ playerULID else requested
    some { playerID := playerID
           sessionID := sessionID
           token := iss.issue jwt now sessionID playerID
           expiresAt := unixMilli (later + iss.ttl) }

end Tokens

/-! ## How a token is carried -/

/-- The three ways a request can carry a token. -/
inductive Carries (token : String) : Request → Prop
  | bearer (query : String) : Carries token ⟨String.ofList (bearer ++ token.toList), query⟩
  | bare (query : String) : Carries token ⟨token, query⟩
  | query : Carries token ⟨"", token⟩

theorem Carries.extract {token : String} {r : Request} (h : Carries token r)
    (hne : token ≠ "") (hsolid : ' ' ∉ token.toList) : extractToken r = token := by
  cases h with
  | bearer query =>
    have hauth : String.ofList (Session.bearer ++ token.toList) ≠ "" := by
      intro h
      have hlist := congrArg String.toList h
      rw [String.toList_ofList] at hlist
      cases hlist
    have hcut : Session.bearer.isPrefixOf? (Session.bearer ++ token.toList) = some token.toList :=
      List.isPrefixOf?_eq_some_iff_append_eq.mpr rfl
    rw [extractToken, if_pos hauth, String.toList_ofList, hcut]
    exact String.ofList_toList
  | bare query =>
    have hcut : Session.bearer.isPrefixOf? token.toList = none := by
      cases hp : Session.bearer.isPrefixOf? token.toList with
      | none => rfl
      | some rest =>
        have happ := List.isPrefixOf?_eq_some_iff_append_eq.mp hp
        refine absurd ?_ hsolid
        rw [← happ]
        exact List.mem_append_left _ (by decide)
    rw [extractToken, if_pos hne, hcut]
  | query => rw [extractToken, if_neg (fun h => h rfl)]

/-! ## From issue to expiry -/

theorem ofUnixMilli_le (t : Time) : ofUnixMilli (unixMilli t) ≤ t := by
  have h : (t - unixEpoch) / 1000000 * 1000000 ≤ t - unixEpoch := Int.ediv_mul_le _ (by decide)
  unfold ofUnixMilli unixMilli
  linarith

/-- A date in milliseconds is no earlier than in seconds. -/
theorem Jwt.date_le_ofUnixMilli (jwt : Jwt) {s t : Time} (h : s ≤ t) :
    ofNumericDate (jwt.numericDate s) ≤ ofUnixMilli (unixMilli t) := by
  have hms : ∀ d b : ℤ, d * 1000000000 ≤ b → d * 1000000000 ≤ b / 1000000 * 1000000 := by
    intro d b hdb
    omega
  have hdate : unixEpoch + jwt.numericDate s * 1000000000 ≤ t := le_trans (jwt.date_le s) h
  have h' := hms (jwt.numericDate s) (t - unixEpoch) (by linarith)
  exact Int.add_le_add_left h' unixEpoch

theorem Carries.extract_issued {jwt : Jwt} {iss : Issuer} {r : Request} {sessionID : String}
    {playerID : PlayerID} {now : Time} (hc : Carries (iss.issue jwt now sessionID playerID) r) :
    extractToken r = iss.issue jwt now sessionID playerID := by
  obtain ⟨hne, hsolid⟩ := jwt.solid iss.secret (iss.claims jwt now sessionID playerID)
  exact hc.extract hne hsolid

theorem authenticate_issued (jwt : Jwt) (iss : Issuer) {r : Request} {sessionID : String}
    {playerID : PlayerID} {now : Time} (hc : Carries (iss.issue jwt now sessionID playerID) r)
    (t : Time) :
    authenticate jwt iss t r =
      if t < ofNumericDate (jwt.numericDate (now + iss.ttl)) then
        some (iss.claims jwt now sessionID playerID)
      else none := by
  have hne := (jwt.solid iss.secret (iss.claims jwt now sessionID playerID)).1
  have hvalid := jwt.valid_iff t (iss.claims jwt now sessionID playerID) _ rfl
  rw [authenticate, hc.extract_issued, Issuer.issue, if_neg hne, Issuer.verify, jwt.parse_sign]
  by_cases hlt : t < ofNumericDate (jwt.numericDate (now + iss.ttl))
  · rw [if_pos hlt]
    exact Option.filter_some_pos (hvalid.mpr hlt)
  · rw [if_neg hlt]
    exact Option.filter_some_neg (Bool.eq_false_iff.mpr fun h => hlt (hvalid.mp h))

/-- **A token from issue to expiry.** A request that carries the token of a response, in
the header with or without `Bearer` or as a parameter, is taken for the player and the
session of that response exactly until the beginning of the whole second in which the TTL
ends: it is accepted as long as a second of the TTL is left, refused in the rest of that
second and never accepted after the TTL. The response itself names a time that is not
before this, and less than a second after it when the clock has not moved on in between. -/
theorem session_token_lifetime (jwt : Jwt) (iss : Issuer) (method : String) (body : RawMessage)
    (playerULID sessionID : String) (now later : Time) (hlater : now ≤ later)
    (res : SessionResponse)
    (hres : serveHTTP jwt iss method body playerULID sessionID now later = some res)
    (r : Request) (hc : Carries res.token r) :
    ∃ (expiry : Time) (claims : Claims),
      claims.playerID = res.playerID ∧ claims.id = res.sessionID ∧
      (∀ t, authenticate jwt iss t r = if t < expiry then some claims else none) ∧
      (∃ date : ℤ, expiry = unixEpoch + date * second) ∧
      now + iss.ttl - second < expiry ∧ expiry ≤ now + iss.ttl ∧
      expiry ≤ ofUnixMilli res.expiresAt ∧
      (later = now → ofUnixMilli res.expiresAt < expiry + second) := by
  unfold serveHTTP at hres
  split at hres
  · cases hres
  cases hres
  refine ⟨ofNumericDate (jwt.numericDate (now + iss.ttl)), iss.claims jwt now sessionID _, rfl, rfl,
    authenticate_issued jwt iss hc, ⟨_, rfl⟩, ?_, jwt.date_le _, ?_, ?_⟩
  · have h := jwt.lt_date (now + iss.ttl)
    linarith
  · exact jwt.date_le_ofUnixMilli (Int.add_le_add_right hlater _)
  · rintro rfl
    have h := jwt.lt_date (later + iss.ttl)
    have hms := ofUnixMilli_le (later + iss.ttl)
    exact lt_of_le_of_lt hms h

/-! ## A signature that is one -/

theorem signable_countable : Countable (String × Claims) := by
  have hchar : Countable Char := Function.Injective.countable fun _ _ h => Char.toNat_inj.mp h
  have hstring : Countable String :=
    Function.Injective.countable fun _ _ h => String.toList_inj.mp h
  have hclaims : Countable Claims := by
    refine Function.Injective.countable
      (f := fun c : Claims => (c.subject, c.id, c.issuedAt, c.expiresAt, c.playerID)) ?_
    rintro ⟨⟩ ⟨⟩ h
    cases h
    rfl
  infer_instance

/-- A number for everything that can be signed. -/
noncomputable def serial : String × Claims → ℕ :=
  (@exists_injective_nat _ signable_countable).choose

theorem serial_injective : Function.Injective serial :=
  (@exists_injective_nat _ signable_countable).choose_spec

noncomputable def stamp (secret : String) (claims : Claims) : String :=
  String.ofList (List.replicate (serial (secret, claims) + 1) 'x')

theorem stamp_injective {secret : String} {claims claims' : Claims}
    (h : stamp secret claims = stamp secret claims') : claims = claims' := by
  have hlen := congrArg (fun s => s.toList.length) h
  simp only [stamp, String.toList_ofList, List.length_replicate, Nat.add_right_cancel_iff] at hlen
  cases serial_injective hlen
  rfl

open Classical in
/-- Nobody can take one stamp for another. -/
noncomputable def stamped : Jwt where
  sign := stamp
  parse := fun secret token =>
    if h : ∃ claims, stamp secret claims = token then some h.choose else none
  numericDate := fun t => (t - unixEpoch) / second
  valid := fun now claims => claims.expiresAt.all fun date => now < ofNumericDate date
  parse_sign := by
    intro secret claims
    have h : ∃ claims', stamp secret claims' = stamp secret claims := ⟨claims, rfl⟩
    rw [dif_pos h, stamp_injective h.choose_spec]
  solid := by
    intro secret claims
    constructor
    · intro h
      have hlist := congrArg String.toList h
      rw [stamp, String.toList_ofList] at hlist
      cases hlist
    · rw [stamp, String.toList_ofList]
      intro h
      have hx := List.eq_of_mem_replicate h
      cases hx
  date_le := by
    intro t
    have h : (t - unixEpoch) / second * second ≤ t - unixEpoch := Int.ediv_mul_le _ (by decide)
    unfold ofNumericDate
    linarith
  lt_date := by
    intro t
    have h : t - unixEpoch < ((t - unixEpoch) / second + 1) * second :=
      Int.lt_ediv_add_one_mul_self _ (by decide)
    unfold ofNumericDate
    linarith
  valid_iff := by
    intro now claims date h
    rw [h, Option.all_some, decide_eq_true_iff]

/-- A token for an hour that is issued half a second after noon is good until one and
refused in the second after it. -/
theorem noon_token_lifetime :
    let one : Time := unixEpoch + 13 * hour
    let iss : Issuer := ⟨"secret", hour⟩
    let issued : Time := one - hour + second / 2
    ∃ res, serveHTTP stamped iss "POST" none "01J" "01K" issued issued = some res ∧
      (authenticate stamped iss (one - 1) ⟨"", res.token⟩).isSome = true ∧
      authenticate stamped iss one ⟨"", res.token⟩ = none := by
  intro one iss issued
  refine ⟨_, rfl, ?_⟩
  obtain ⟨expiry, claims, -, -, hauth, ⟨date, hdate⟩, hafter, hbefore, -⟩ :=
    session_token_lifetime stamped iss "POST" none "01J" "01K" issued issued (le_refl _) _ rfl
      ⟨"", _⟩ .query
  -- one is the only whole second within a second before the end of the hour
  have hwhole : ∀ e d : ℤ, e + 13 * 3600000000000 - 3600000000000 + 500000000 + 3600000000000 -
      1000000000 < e + d * 1000000000 → e + d * 1000000000 ≤
      e + 13 * 3600000000000 - 3600000000000 + 500000000 + 3600000000000 →
      e + d * 1000000000 = e + 13 * 3600000000000 := by
    intro e d h h'
    omega
  have hone : expiry = one := by
    rw [hdate] at hafter hbefore ⊢
    exact hwhole unixEpoch date hafter hbefore
  rw [hone] at hauth
  constructor
  · rw [hauth, if_pos (Int.sub_one_lt_iff.mpr (le_refl _))]
    rfl
  · rw [hauth, if_neg (lt_irrefl _)]

end RealtimeEngine.Session
