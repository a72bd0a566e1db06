import RocketmqBroker.Broker.Step
import RocketmqBroker.Lib.Run
import RocketmqBroker.Management.Routes

/-!
The permission of a user on a vhost, as the management API reads, sets and deletes it
(management/routes/users.rs, auth/mod.rs). The three handlers share a path and do not read it
alike: PUT takes its components the other way round, and DELETE leaves everything as it is.
-/
namespace RocketmqBroker
open Run

/-- Who is a user, and the permissions by user and vhost. -/
structure Accounts where
  users : List String
  permissions : AuthBackend

abbrev SetPermissionRequest := Permission

structure PermissionInfo where
  user : String
  vhost : String
  configure : String
  write : String
  read : String
  deriving DecidableEq, Repr

def Permission.info (perm : Permission) (user vhost : String) : PermissionInfo :=
  ⟨user, vhost, perm.configure, perm.write, perm.read⟩

/-- A request for /api/permissions/{vhost}/{user}, with the two components of its path. -/
inductive PermissionRequest where
  | getPermission (path : String × String)
  | setPermissions (path : String × String) (req : SetPermissionRequest)
  | deletePermission (path : String × String)
  deriving DecidableEq, Repr

inductive PermissionReply where
  | permission (info : PermissionInfo)
  | status (code : Nat)
  | error (code : Nat) (text : String)
  deriving DecidableEq, Repr

namespace PermissionRequest

def path : PermissionRequest → String × String
  | getPermission path => path
  | setPermissions path _ => path
  | deletePermission path => path

def vhost (r : PermissionRequest) : String := r.path.1

def user (r : PermissionRequest) : String := r.path.2

end PermissionRequest

namespace Accounts

def listUserPermissions (a : Accounts) (username : String) : List PermissionInfo :=
  (a.permissions.entries.filter fun e => e.1.1 == username).map fun e => e.2.info e.1.1 e.1.2

def getPermission (a : Accounts) (path : String × String) : PermissionReply :=
  let (vhost, user) := path
  match (a.listUserPermissions user).find? (·.vhost == vhost) with
  | some info => .permission info
  | none => .status notFound

def setPermissions (a : Accounts) (username vhost configure write read : String) :
    Except String Accounts :=
  if !a.users.contains username then .error ("user '" ++ username ++ "' not found")
  else
    let perm : Permission := ⟨configure, write, read⟩
    .ok { a with permissions := a.permissions.insert (username, vhost) perm }

def putPermissions (a : Accounts) (path : String × String) (req : SetPermissionRequest) :
    PermissionReply × Accounts :=
  let (user, vhost) := path
  match a.setPermissions user vhost req.configure req.write req.read with
  | .error e => (.error notFound e, a)
  | .ok a => (.status noContent, a)

def deletePermission (a : Accounts) (_ : String × String) : PermissionReply × Accounts :=
  (.status noContent, a)

def serve (a : Accounts) : PermissionRequest → PermissionReply × Accounts
  | .getPermission path => (a.getPermission path, a)
  | .setPermissions path req => a.putPermissions path req
  | .deletePermission path => a.deletePermission path

def after (a : Accounts) (r : PermissionRequest) : Accounts := (a.serve r).2

section
variable (env : Env) (a : Accounts) (username vhost resource : String)

def checkPermission (extractor : Permission → String) : Bool :=
  match a.permissions.get? (username, vhost) with
  | some perm => matchesResource env (extractor perm) resource
  | none => false

def checkConfigure : Bool := a.checkPermission env username vhost resource (·.configure)

def checkWrite : Bool := a.checkPermission env username vhost resource (·.write)

def checkRead : Bool := a.checkPermission env username vhost resource (·.read)

end

end Accounts

def PermissionRequest.asks (vhost user : String) (known : Option Permission) :
    PermissionRequest → Option Permission
  | getPermission _ => known
  | setPermissions path req => if path = (vhost, user) then some req else known
  | deletePermission path => if path = (vhost, user) then none else known

/-- The last PUT for the vhost and the user that no DELETE follows, or what was there before. -/
def asked (vhost user : String) (before : Option Permission) (requests : List PermissionRequest) :
    Option Permission := run (PermissionRequest.asks vhost user) before requests

/-- GET returns this permission, or that there is none, and the checks follow it. -/
structure Accounts.Follows (env : Env) (a : Accounts) (vhost user : String)
    (known : Option Permission) : Prop where
  get : a.getPermission (vhost, user) =
    (known.map fun perm => .permission (perm.info user vhost)).getD (.status notFound)
  configure : ∀ resource, a.checkConfigure env user vhost resource =
    known.any fun perm => matchesResource env perm.configure resource
  write : ∀ resource, a.checkWrite env user vhost resource =
    known.any fun perm => matchesResource env perm.write resource
  read : ∀ resource, a.checkRead env user vhost resource =
    known.any fun perm => matchesResource env perm.read resource

/-- The request happens to leave what it asks for: a PUT if the vhost has the name of the user,
    or nothing would change either way, a DELETE if there is nothing to delete. -/
def PermissionRequest.Obeyed (a : Accounts) : PermissionRequest → Prop
  | getPermission _ => True
  | setPermissions (vhost, user) req => vhost = user ∨
      a.permissions.get? (user, vhost) = some req ∧
        (vhost ∈ a.users → a.permissions.get? (vhost, user) = some req)
  | deletePermission (vhost, user) => a.permissions.get? (user, vhost) = none

section
variable {env : Env} {a : Accounts} {user vhost : String} {known : Option Permission}

@[simp] theorem asks_set (path : String × String) (req : SetPermissionRequest) :
    (PermissionRequest.setPermissions path req).asks vhost user known =
      if path = (vhost, user) then some req else known := rfl

@[simp] theorem asks_delete (path : String × String) :
    (PermissionRequest.deletePermission path).asks vhost user known =
      if path = (vhost, user) then none else known := rfl

theorem checkPermission_accounts {s : BrokerState} {connId : UInt64} {cs : ConnectionState}
    (found : s.connState.get? connId = some cs) (same : s.auth = a.permissions)
    (extractor : Permission → String) (resource : String) :
    checkPermission env s connId extractor resource =
      a.checkPermission env cs.username cs.vhost resource extractor := by
  unfold RocketmqBroker.checkPermission Accounts.checkPermission
  cases perm : a.permissions.get? (cs.username, cs.vhost) with
  | none => simp only [found, same, perm]
  | some p => simp only [found, same, perm]

theorem getPermission_eq (a : Accounts) (vhost user : String) :
    a.getPermission (vhost, user) = ((a.permissions.get? (user, vhost)).map fun perm =>
      PermissionReply.permission (perm.info user vhost)).getD (.status notFound) := by
  unfold Accounts.getPermission Accounts.listUserPermissions
  dsimp only
  cases first : List.find? (fun info : PermissionInfo => info.vhost == vhost)
      ((a.permissions.entries.filter fun e => e.1.1 == user).map fun e =>
        e.2.info e.1.1 e.1.2) with
  | none =>
    cases known : a.permissions.get? (user, vhost) with
    | none => rfl
    | some perm =>
      have entry := FinMap.get?_eq_some_iff_mem.mp known
      have listed : perm.info user vhost ∈ (a.permissions.entries.filter fun e =>
          e.1.1 == user).map fun e => e.2.info e.1.1 e.1.2 :=
        List.mem_map.mpr ⟨_, List.mem_filter.mpr ⟨entry, beq_self_eq_true user⟩, rfl⟩
      exact absurd (beq_self_eq_true vhost) (List.find?_eq_none.mp first _ listed)
  | some info =>
    have asked : (info.vhost == vhost) = true :=
      List.find?_some (p := fun info : PermissionInfo => info.vhost == vhost) first
    obtain ⟨⟨⟨username, on⟩, perm⟩, kept, rfl⟩ :=
      List.mem_map.mp (List.mem_of_find?_eq_some first)
    obtain ⟨entry, mine⟩ := List.mem_filter.mp kept
    obtain rfl : username = user := eq_of_beq mine
    obtain rfl : on = vhost := eq_of_beq asked
    rw [FinMap.get?_eq_some_iff_mem.mpr entry]
    rfl

theorem follows_iff : a.Follows env vhost user known ↔
    a.permissions.get? (user, vhost) = known := by
  constructor
  · intro follows
    have get := (getPermission_eq a vhost user).symm.trans follows.get
    revert get
    cases a.permissions.get? (user, vhost) with
    | none =>
      cases known with
      | none => exact fun _ => rfl
      | some perm => exact fun get => nomatch get
    | some perm =>
      cases known with
      | none => exact fun get => nomatch get
      | some perm' =>
        intro get
        have same : perm.info user vhost = perm'.info user vhost :=
          PermissionReply.permission.inj get
        obtain ⟨-, -, configure, write, read⟩ := PermissionInfo.mk.inj same
        cases perm
        cases perm'
        exact congrArg some (congr (congr (congrArg Permission.mk configure) write) read)
  · rintro rfl
    have checks (extractor : Permission → String) (resource : String) :
        a.checkPermission env user vhost resource extractor =
          (a.permissions.get? (user, vhost)).any fun perm =>
            matchesResource env (extractor perm) resource := by
      unfold Accounts.checkPermission
      cases a.permissions.get? (user, vhost) with
      | none => rfl
      | some perm => rfl
    exact ⟨getPermission_eq a vhost user, checks _, checks _, checks _⟩

theorem after_users (a : Accounts) (r : PermissionRequest) : (a.after r).users = a.users := by
  cases r with
  | getPermission path => rfl
  | deletePermission path => rfl
  | setPermissions path req =>
    unfold Accounts.after Accounts.serve Accounts.putPermissions Accounts.setPermissions
    by_cases there : a.users.contains path.1 = true
    · simp only [there, Bool.not_true, Bool.false_eq_true, if_false]
    · simp only [there, Bool.not_false, if_true]

theorem get?_setPermissions (a : Accounts) (path : String × String) (req : SetPermissionRequest)
    (key : String × String) :
    (a.after (.setPermissions path req)).permissions.get? key =
      if path.1 ∈ a.users ∧ key = path then some req else a.permissions.get? key := by
  unfold Accounts.after Accounts.serve Accounts.putPermissions Accounts.setPermissions
  by_cases there : path.1 ∈ a.users
  · have present : a.users.contains path.1 = true := List.contains_iff_mem.mpr there
    simp only [present, Bool.not_true, Bool.false_eq_true, if_false, there, true_and]
    exact FinMap.get?_insert _ _ _ _
  · have missing : a.users.contains path.1 = false :=
      Bool.eq_false_iff.mpr fun present => there (List.contains_iff_mem.mp present)
    simp only [missing, Bool.not_false, if_true, there, false_and, if_false]

theorem obeyed_delete_iff (existing : user ∈ a.users) :
    a.permissions.get? (user, vhost) = none ↔ ∀ vhost', ∀ user' ∈ a.users,
      a.permissions.get? (user', vhost') =
        if (vhost, user) = (vhost', user') then none else a.permissions.get? (user', vhost') := by
  constructor
  · intro missing vhost' user' _
    by_cases meant : (vhost, user) = (vhost', user')
    · obtain ⟨rfl, rfl⟩ := Prod.mk.inj meant
      rw [if_pos rfl]
      exact missing
    · rw [if_neg meant]
  · intro leaves
    have here := leaves vhost user existing
    rw [if_pos rfl] at here
    exact here

theorem obeyed_set_iff {req : SetPermissionRequest} (existing : user ∈ a.users) :
    (vhost = user ∨ a.permissions.get? (user, vhost) = some req ∧
      (vhost ∈ a.users → a.permissions.get? (vhost, user) = some req)) ↔
    ∀ vhost', ∀ user' ∈ a.users,
      (if vhost ∈ a.users ∧ (user', vhost') = (vhost, user) then some req
        else a.permissions.get? (user', vhost')) =
      if (vhost, user) = (vhost', user') then some req
        else a.permissions.get? (user', vhost') := by
  constructor
  · rintro (rfl | ⟨there, swapped⟩) vhost' user' member
    · refine if_congr ⟨?_, ?_⟩ rfl rfl
      · rintro ⟨-, same⟩
        obtain ⟨rfl, rfl⟩ := Prod.mk.inj same
        rfl
      · intro same
        obtain ⟨rfl, rfl⟩ := Prod.mk.inj same
        exact ⟨existing, rfl⟩
    · by_cases done : vhost ∈ a.users ∧ (user', vhost') = (vhost, user)
      · obtain ⟨named, same⟩ := done
        obtain ⟨rfl, rfl⟩ := Prod.mk.inj same
        rw [if_pos ⟨named, rfl⟩, swapped named, ite_self]
      · rw [if_neg done]
        by_cases meant : (vhost, user) = (vhost', user')
        · obtain ⟨rfl, rfl⟩ := Prod.mk.inj meant
          rw [if_pos rfl]
          exact there
        · rw [if_neg meant]
  · intro leaves
    by_cases same : vhost = user
    · exact Or.inl same
    · have here := leaves vhost user existing
      rw [if_neg fun turned => same (Prod.mk.inj turned.2).2, if_pos rfl] at here
      refine Or.inr ⟨here, fun named => ?_⟩
      have there := leaves user vhost named
      rw [if_pos ⟨named, rfl⟩, if_neg fun turned => same (Prod.mk.inj turned).1] at there
      exact there.symm

theorem obeyed_iff {r : PermissionRequest} (existing : r.user ∈ a.users) : r.Obeyed a ↔
    ∀ vhost, ∀ user ∈ a.users, (a.after r).permissions.get? (user, vhost) =
      r.asks vhost user (a.permissions.get? (user, vhost)) := by
  cases r with
  | getPermission path => exact iff_of_true trivial fun _ _ _ => rfl
  | deletePermission path =>
    simp only [asks_delete]
    exact obeyed_delete_iff existing
  | setPermissions path req =>
    simp only [get?_setPermissions, asks_set]
    exact obeyed_set_iff existing

abbrev Audit := Accounts × (String → String → Option Permission)

def audited (s : Audit) (r : PermissionRequest) : Audit :=
  (s.1.after r, fun vhost user => r.asks vhost user (s.2 vhost user))

def Audit.Agree (users : List String) (s : Audit) : Prop :=
  ∀ vhost, ∀ user ∈ users, s.1.permissions.get? (user, vhost) = s.2 vhost user

/-- The requests of a run are followed throughout exactly if each of them is obeyed where it is
    served. -/
theorem permissions_follow_iff (env : Env) (a : Accounts) (requests : List PermissionRequest)
    (existing : ∀ r ∈ requests, r.user ∈ a.users) :
    (∀ before after, requests = before ++ after → ∀ vhost, ∀ user ∈ a.users,
      (run Accounts.after a before).Follows env vhost user
        (asked vhost user (a.permissions.get? (user, vhost)) before)) ↔
      Along Accounts.after (fun a r => r.Obeyed a) a requests := by
  let start : Audit := (a, fun vhost user => a.permissions.get? (user, vhost))
  have stored (before : List PermissionRequest) :
      (run audited start before).1 = run Accounts.after a before :=
    run_map (f := Prod.fst) (fun _ _ => rfl) start before
  have known (before : List PermissionRequest) (vhost user : String) :
      (run audited start before).2 vhost user =
        asked vhost user (a.permissions.get? (user, vhost)) before :=
    run_map (f := fun s => s.2 vhost user) (fun _ _ => rfl) start before
  have throughout : (∀ before after, requests = before ++ after →
      Audit.Agree a.users (run audited start before)) ↔
      Along audited (fun s r => r.Obeyed s.1) start requests := by
    refine throughout_iff_along (fun s : Audit => s.1.users = a.users) (fun _ _ _ => rfl) rfl
      (fun s r _ (same : s.1.users = a.users) => (after_users s.1 r).trans same)
      fun s r member (same : s.1.users = a.users) agree => ?_
    have there : r.user ∈ s.1.users := by
      rw [same]
      exact existing r member
    rw [obeyed_iff there, same]
    refine forall_congr' fun vhost => forall_congr' fun user => forall_congr' fun member => ?_
    rw [agree vhost user member]
    exact Iff.rfl
  have obeyed : Along audited (fun s r => r.Obeyed s.1) start requests ↔
      Along Accounts.after (fun a r => r.Obeyed a) a requests :=
    along_map (f := Prod.fst) (fun _ _ => rfl) start requests
  rw [← obeyed, ← throughout]
  simp only [follows_iff, Audit.Agree, stored, known]

end

def guestAndApp : Accounts := ⟨["guest", "app"], guestOnly⟩

def everything : SetPermissionRequest := ⟨".*", ".*", ".*"⟩

theorem permissions_follow_iff_named :
    let requests := [.setPermissions ("app", "app") everything, .getPermission ("/", "app")]
    (∀ before after, requests = before ++ after → ∀ vhost, ∀ user ∈ guestAndApp.users,
      (run Accounts.after guestAndApp before).Follows (plainEnv 64 1) vhost user
        (asked vhost user (guestAndApp.permissions.get? (user, vhost)) before)) ↔
      Along Accounts.after (fun a r => r.Obeyed a) guestAndApp requests :=
  permissions_follow_iff (plainEnv 64 1) guestAndApp _ (by decide)

/-- A PUT for app on "/" is answered with 404 and sets nothing, one for app on a vhost "guest"
    gives guest the vhost "app", and a DELETE leaves guest what it has. -/
theorem permissions_not_followed :
    let env := plainEnv 64 1
    let known (vhost user : String) :=
      asked vhost user (guestAndApp.permissions.get? (user, vhost))
    let put : PermissionRequest := .setPermissions ("/", "app") everything
    let swapped : PermissionRequest := .setPermissions ("guest", "app") everything
    let delete : PermissionRequest := .deletePermission ("/", "guest")
    ¬ (guestAndApp.after put).Follows env "/" "app" (known "/" "app" [put]) ∧
    (guestAndApp.serve put).1 = .error 404 "user '/' not found" ∧
    ¬ (guestAndApp.after swapped).Follows env "app" "guest" (known "app" "guest" [swapped]) ∧
    (guestAndApp.after swapped).checkWrite env "guest" "app" "q" = true ∧
    ¬ (guestAndApp.after delete).Follows env "/" "guest" (known "/" "guest" [delete]) ∧
    (guestAndApp.after delete).checkRead env "guest" "/" "q" = true := by
  simp only [follows_iff]
  decide +kernel

end RocketmqBroker
