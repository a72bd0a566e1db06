import RocketmqBroker.Handlers.Frame
import RocketmqBroker.Management.Routes
import RocketmqBroker.State.BrokerState

/-!
The users of the broker with their passwords and permissions (auth/mod.rs, auth/credentials.rs),
as the management API changes them (management/routes/users.rs) and as they stand in the file.
-/
namespace RocketmqBroker

inductive UserTag where
  | administrator
  | management
  | monitoring
  | none
  deriving DecidableEq, Repr

structure UserEntry where
  username : String
  passwordHash : String
  tags : List UserTag
  deriving DecidableEq, Repr

/-- What is used of the crate `bcrypt`. A hash takes a salt. Passwords that it takes for the
    same, such as those with the same first 72 bytes, are alike. -/
structure Bcrypt where
  hash : Nat → String → String
  verify : String → String → Bool
  alike : String → String → Bool
  alike_refl : ∀ password, alike password password = true
  verify_hash : ∀ salt password attempt,
    verify attempt (hash salt password) = alike password attempt

structure DefaultUsers where
  user : String
  pass : String
  adminUser : String
  adminPass : String

structure UserBackend where
  users : FinMap String UserEntry
  permissions : AuthBackend

structure UserStore where
  users : List UserEntry
  permissions : List ((String × String) × Permission)
  deriving DecidableEq, Repr

def Permission.fullAccess : Permission := ⟨".*", ".*", ".*"⟩

namespace UserEntry

def new (b : Bcrypt) (salt : Nat) (username password : String) (tags : List UserTag) :
    UserEntry := ⟨username, b.hash salt password, tags⟩

def verifyPassword (b : Bcrypt) (u : UserEntry) (password : String) : Bool :=
  b.verify password u.passwordHash

def setPassword (b : Bcrypt) (salt : Nat) (u : UserEntry) (password : String) : UserEntry :=
  { u with passwordHash := b.hash salt password }

end UserEntry

namespace UserBackend

def new (b : Bcrypt) (cfg : DefaultUsers) (salts : Nat × Nat) : UserBackend :=
  let guest := UserEntry.new b salts.1 cfg.user cfg.pass [.administrator]
  let admin := UserEntry.new b salts.2 cfg.adminUser cfg.adminPass [.administrator]
  ⟨((∅ : FinMap String UserEntry).insert cfg.user guest).insert cfg.adminUser admin,
    ((∅ : AuthBackend).insert (cfg.user, "/") .fullAccess).insert (cfg.adminUser, "/")
      .fullAccess⟩

def authenticate (b : Bcrypt) (cfg : DefaultUsers) (a : UserBackend) (username password : String)
    (loopback : Bool) : Except String Unit :=
  match a.users.get? username with
  | none => .error ("user '" ++ username ++ "' not found")
  | some entry =>
    if username = cfg.user ∧ loopback = false then
      .error ("user '" ++ cfg.user ++ "' can only connect via localhost")
    else if entry.verifyPassword b password then .ok ()
    else .error ("authentication failed for user '" ++ username ++ "'")

def checkVhostAccess (a : UserBackend) (username vhost : String) : Bool :=
  a.permissions.contains (username, vhost)

section
variable (b : Bcrypt) (cfg : DefaultUsers) (salt : Nat) (a : UserBackend)

def addUser (username password : String) (tags : List UserTag) : Except String UserBackend :=
  if a.users.contains username then .error ("user '" ++ username ++ "' already exists")
  else .ok { a with users := a.users.insert username (.new b salt username password tags) }

def deleteUser (username : String) : Except String UserBackend :=
  if username = cfg.user then .error "cannot delete the default guest user"
  else if !a.users.contains username then .error ("user '" ++ username ++ "' not found")
  else .ok ⟨a.users.erase username, a.permissions.retain fun key _ => key.1 != username⟩

def changePassword (username newPassword : String) : Except String UserBackend :=
  if !a.users.contains username then .error ("user '" ++ username ++ "' not found")
  else .ok { a with users := a.users.modify username (·.setPassword b salt newPassword) }

def setUserTags (username : String) (tags : List UserTag) : Except String UserBackend :=
  if !a.users.contains username then .error ("user '" ++ username ++ "' not found")
  else .ok { a with users := a.users.modify username ({ · with tags }) }

def setPermissions (username vhost : String) (perm : Permission) : Except String UserBackend :=
  if !a.users.contains username then .error ("user '" ++ username ++ "' not found")
  else .ok { a with permissions := a.permissions.insert (username, vhost) perm }

end

def store (a : UserBackend) : UserStore :=
  ⟨a.users.entries.map (·.2), a.permissions.entries.map fun e => (e.1, e.2)⟩

end UserBackend

def UserStore.backend (s : UserStore) : UserBackend :=
  ⟨s.users.foldl (fun users su => users.insert su.username su) ∅,
    s.permissions.foldl (fun permissions p => permissions.insert p.1 p.2) ∅⟩

/-- A request that changes users or permissions. A path is given by its two components. -/
inductive UserRequest where
  | addUser (username password : String) (tags : List UserTag)
  | deleteUser (name : String)
  | changePassword (name password : String)
  | upsertUser (name : String) (password : Option String) (tags : List UserTag)
  | bulkDeleteUsers (names : List String)
  | setPermissions (path : String × String) (req : Permission)
  deriving DecidableEq, Repr

inductive UserReply where
  | status (code : Nat)
  | error (code : Nat) (text : String)
  deriving DecidableEq, Repr

def conflict : Nat := 409

namespace UserBackend

/-- `map_err` and `?`: an error is the answer, and nothing has changed. -/
def replied (a : UserBackend) (error success : Nat) :
    Except String UserBackend → UserReply × UserBackend
  | .error text => (.error error text, a)
  | .ok after => (.status success, after)

/-- `let _ =`: an error is passed over. -/
def orSame (a : UserBackend) : Except String UserBackend → UserBackend
  | .error _ => a
  | .ok after => after

variable (b : Bcrypt) (cfg : DefaultUsers) (salt : Nat) (a : UserBackend)

def upsertUser (name : String) (password : Option String) (tags : List UserTag) : UserBackend :=
  let password := password.getD "changeme"
  match a.addUser b salt name password tags with
  | .ok after => after
  | .error _ =>
    let a := a.orSame (a.changePassword b salt name password)
    a.orSame (a.setUserTags name tags)

def serve : UserRequest → UserReply × UserBackend
  | .addUser username password tags =>
    a.replied conflict created (a.addUser b salt username password tags)
  | .deleteUser name => a.replied notFound noContent (a.deleteUser cfg name)
  | .changePassword name password =>
    a.replied notFound noContent (a.changePassword b salt name password)
  | .upsertUser name password tags => (.status noContent, a.upsertUser b salt name password tags)
  | .bulkDeleteUsers names =>
    (.status noContent, names.foldl (fun a name => a.orSame (a.deleteUser cfg name)) a)
  | .setPermissions (user, vhost) req =>
    a.replied notFound noContent (a.setPermissions user vhost req)

end UserBackend

end RocketmqBroker
