import RocketmqBroker.Access.UserRuns
import RocketmqBroker.Management.Base64
import RocketmqBroker.Protocol.PropertyWriter

/-!
The gate of the management API (`auth_middleware` in management/mod.rs). It takes the credentials
from the `Authorization` header and asks the backend as if the client were on the same host. The
text is cut at its first colon, so a name with a colon in it never gets through.
-/
namespace RocketmqBroker

/-- The paths of the API that ask for no credentials. -/
def openPaths : List String :=
  ["/api/health", "/api/healthcheck", "/api/metrics", "/api/version", "/api/deprecated-features",
    "/api/deprecated-features/used"]

def isOpenPath (path : String) : Bool :=
  openPaths.contains path || !(strBytes "/api/").isPrefixOf (strBytes path)

/-- The characters of a header that `to_str` allows. -/
def isVisibleAscii (b : UInt8) : Bool := (32 ≤ b && b < 127) || b == 9

/-- `split_once(':')`. -/
def splitColon (s : String) : Option (String × String) :=
  match s.toList.dropWhile (· != ':') with
  | [] => none
  | _ :: rest => some (.ofList (s.toList.takeWhile (· != ':')), .ofList rest)

def basicCredentials (header : Bytes) : Option (String × String) :=
  if !header.all isVisibleAscii then none
  else if !(strBytes "Basic ").isPrefixOf header then none
  else (Base64Reader.new.read (header.drop 6)).bind fun decoded =>
    (fromUtf8 decoded).bind splitColon

/-- Whether a request gets through to its handler; otherwise it is answered with 401. -/
def authMiddleware (b : Bcrypt) (cfg : DefaultUsers) (a : UserBackend) (path : String)
    (header : Option Bytes) : Bool :=
  isOpenPath path ||
    match header.bind basicCredentials with
    | none => false
    | some (username, password) => (a.authenticate b cfg username password true).toBool

/-- The header in which a client sends these characters. -/
def basicHeader (encoded : Bytes) : Bytes := strBytes "Basic " ++ encoded

theorem splitColon_eq_some_iff {s username password : String} :
    splitColon s = some (username, password) ↔
      ':' ∉ username.toList ∧ s = username ++ ":" ++ password := by
  have parts := s.toList.takeWhile_append_dropWhile (p := (· != ':'))
  constructor
  · intro split
    unfold splitColon at split
    cases behind : s.toList.dropWhile (· != ':') with
    | nil =>
      rw [behind] at split
      exact absurd split.symm (Option.some_ne_none _)
    | cons c rest =>
      rw [behind] at split parts
      obtain ⟨rfl, rfl⟩ := Prod.mk.inj (Option.some.inj split)
      have colon : c = ':' := by
        have stops := List.head_dropWhile_not (· != ':') (l := s.toList)
          (behind ▸ List.cons_ne_nil c rest)
        simpa [behind] using stops
      refine ⟨?_, ?_⟩
      · rw [String.toList_ofList]
        intro member
        have before := List.all_eq_true.mp List.all_takeWhile ':' member
        exact absurd rfl (bne_iff_ne.mp before)
      · refine String.toList_inj.mp ?_
        simp only [String.toList_append, String.toList_ofList, List.append_assoc]
        exact parts.symm.trans (congrArg _ (congrArg (· :: rest) colon))
  · rintro ⟨none, rfl⟩
    have text : (username ++ ":" ++ password).toList =
        username.toList ++ ':' :: password.toList := by
      rw [String.toList_append, String.toList_append, List.append_assoc]
      rfl
    have before : ∀ c ∈ username.toList, (c != ':') = true := by
      intro c member
      exact bne_iff_ne.mpr fun same => none (same ▸ member)
    unfold splitColon
    rw [text, List.dropWhile_append_of_pos before, List.takeWhile_append_of_pos before]
    simp

theorem read_encoded {bytes encoded : Bytes}
    (spaced : encoded.filter (fun c => !isBlank c) = encodeBase64 bytes) :
    Base64Reader.new.read encoded = some bytes := by
  have digits := base64Digits_lt bytes
  have reads := Base64Reader.Reads.new.takes digits
  obtain ⟨bits, few, whole⟩ := holds_base64Digits bytes
  have same := reads.holds.unique whole reads.few few
  rw [← Base64Reader.read_filter, spaced, encodeBase64, Base64Reader.read_digits digits,
    Base64Reader.read_padding]
  exact congrArg some (List.map_injective_iff.mpr (fun _ _ => UInt8.toNat_inj.mp) same)

theorem basicCredentials_header {username password : String} {encoded : Bytes}
    (named : ':' ∉ username.toList) (visible : encoded.all isVisibleAscii = true)
    (spaced : encoded.filter (fun c => !isBlank c) =
      encodeBase64 (strBytes (username ++ ":" ++ password))) :
    basicCredentials (basicHeader encoded) = some (username, password) := by
  have basic : (strBytes "Basic ").all isVisibleAscii = true := by decide +kernel
  have all : (basicHeader encoded).all isVisibleAscii = true := by
    rw [basicHeader, List.all_append, basic, visible]
    rfl
  have starts : (strBytes "Basic ").isPrefixOf (basicHeader encoded) = true :=
    List.isPrefixOf_iff_prefix.mpr (List.prefix_append _ _)
  have rest : (basicHeader encoded).drop 6 = encoded := List.drop_left' (by decide +kernel)
  rw [basicCredentials, all, starts, rest, read_encoded spaced]
  simp only [Bool.not_true, Bool.false_eq_true, if_false, Option.bind_some, fromUtf8_strBytes]
  exact splitColon_eq_some_iff.mpr ⟨named, rfl⟩

theorem basicCredentials_name {header : Bytes} {username password : String}
    (carried : basicCredentials header = some (username, password)) :
    ':' ∉ username.toList := by
  unfold basicCredentials at carried
  split at carried
  · exact absurd carried.symm (Option.some_ne_none _)
  split at carried
  · exact absurd carried.symm (Option.some_ne_none _)
  obtain ⟨decoded, -, text⟩ := Option.bind_eq_some_iff.mp carried
  obtain ⟨s, -, split⟩ := Option.bind_eq_some_iff.mp text
  exact (splitColon_eq_some_iff.mp split).1

/-- Behind the gate of a protected path there is always someone who is registered with the
    password that the header carries, and whoever is registered gets through with it, unless the
    name has a colon. -/
theorem gate_follows_requests (b : Bcrypt) (cfg : DefaultUsers) (t : StoreText)
    (es : List (UserEvent t)) (unread : TornUnreadable t es) (path : String)
    (guarded : isOpenPath path = false) :
    let a := (UserBackend.after b cfg t es).memory
    let known := Registry.told cfg (requestsAfter es).memory
    (∀ username password encoded, ':' ∉ username.toList → encoded.all isVisibleAscii = true →
      encoded.filter (fun c => !isBlank c) =
        encodeBase64 (strBytes (username ++ ":" ++ password)) →
      (authMiddleware b cfg a path (some (basicHeader encoded)) = true ↔
        ∃ account, known.users username = some account ∧ b.alike account.1 password = true)) ∧
    ∀ header, authMiddleware b cfg a path header = true → ∃ username password account,
      header.bind basicCredentials = some (username, password) ∧ ':' ∉ username.toList ∧
        known.users username = some account ∧ b.alike account.1 password = true := by
  intro a known
  have login (username password : String) :
      (a.authenticate b cfg username password true).toBool = true ↔
        ∃ account, known.users username = some account ∧ b.alike account.1 password = true := by
    have obeys : a.Obeys b cfg known := (follows_requests unread).memory.obeys
    have passes : (a.authenticate b cfg username password true).toBool = true ↔
        a.authenticate b cfg username password true = .ok () := by
      generalize a.authenticate b cfg username password true = result
      cases result with
      | error text => exact iff_of_false Bool.false_ne_true (fun same => by cases same)
      | ok passed => exact iff_of_true rfl rfl
    rw [passes, obeys.login]
    simp only [implies_true, and_true]
  constructor
  · intro username password encoded named visible spaced
    have carried := basicCredentials_header named visible spaced
    rw [authMiddleware, guarded, Bool.false_or, Option.bind_some, carried]
    exact login username password
  · intro header passes
    rw [authMiddleware, guarded, Bool.false_or] at passes
    cases carried : header.bind basicCredentials with
    | none =>
      rw [carried] at passes
      exact absurd passes Bool.false_ne_true
    | some credentials =>
      obtain ⟨username, password⟩ := credentials
      rw [carried] at passes
      obtain ⟨account, there, alike⟩ := (login username password).mp passes
      obtain ⟨text, -, split⟩ := Option.bind_eq_some_iff.mp carried
      exact ⟨username, password, account, rfl, basicCredentials_name split, there, alike⟩

theorem gate_follows_requests_guest :
    authMiddleware plainBcrypt guestAndAdmin
      (UserBackend.after plainBcrypt guestAndAdmin plainText tornRun).memory "/api/queues"
      (some (basicHeader (strBytes "Z3Vlc3Q6 Z3Vlc3Q="))) = true := by
  have gate := gate_follows_requests plainBcrypt guestAndAdmin plainText tornRun
    tornRun_unreadable "/api/queues" (by decide +kernel)
  refine (gate.1 "guest" "guest" (strBytes "Z3Vlc3Q6 Z3Vlc3Q=") (by decide +kernel)
    (by decide +kernel) (by decide +kernel)).mpr ?_
  exact ⟨("guest", [.administrator]), rfl, rfl⟩

end RocketmqBroker
