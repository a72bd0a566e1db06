import RocketmqBroker.Access.Users
import RocketmqBroker.Lib.Saving

/-!
The users over runs of the broker. A request changes them in memory, copies them, writes the copy
to the file and is then answered; requests that are served at the same time do so in any order, and
a restart reads the file. What counts is who was registered with which password, which says nothing
of hashes, copies and files.
-/
namespace RocketmqBroker
open Run Saving

/-- The text of the file, as `serde_json` writes and reads it. -/
structure StoreText where
  Text : Type
  write : UserStore → Text
  read : Text → Option UserStore
  read_write : ∀ store, read (write store) = some store

structure Registry where
  users : String → Option (String × List UserTag)
  permissions : String × String → Option Permission

namespace Registry

def defaults (cfg : DefaultUsers) : Registry where
  users := Function.update (Function.update (fun _ => none) cfg.user
    (some (cfg.pass, [.administrator]))) cfg.adminUser (some (cfg.adminPass, [.administrator]))
  permissions := Function.update (Function.update (fun _ => none) (cfg.user, "/")
    (some .fullAccess)) (cfg.adminUser, "/") (some .fullAccess)

variable (cfg : DefaultUsers) (m : Registry)

def setUser (name : String) (account : String × List UserTag) : Registry :=
  { m with users := Function.update m.users name (some account) }

/-- A user goes with all permissions; guest stays. -/
def drop (name : String) : Registry :=
  if name = cfg.user ∨ m.users name = none then m
  else ⟨Function.update m.users name none,
    fun key => if key.1 = name then none else m.permissions key⟩

def asks : UserRequest → Registry
  | .addUser username password tags =>
    if m.users username = none then m.setUser username (password, tags) else m
  | .deleteUser name => m.drop cfg name
  | .changePassword name password =>
    { m with
      users := Function.update m.users name
        ((m.users name).map fun account => (password, account.2)) }
  | .upsertUser name password tags => m.setUser name (password.getD "changeme", tags)
  | .bulkDeleteUsers names => names.foldl (drop cfg) m
  | .setPermissions path req =>
    if m.users path.1 = none then m
    else { m with permissions := Function.update m.permissions path (some req) }

def told (requests : List (UserRequest × Nat)) : Registry :=
  requests.foldl (fun m r => m.asks cfg r.1) (defaults cfg)

end Registry

namespace UserBackend

/-- The database as a keeper of the backend: a request takes a salt, a restart takes two. -/
def keeper (b : Bcrypt) (cfg : DefaultUsers) (t : StoreText) :
    Keeper UserBackend (UserRequest × Nat) (Nat × Nat) (Option t.Text) where
  apply a r := (a.serve b cfg r.2 r.1).2
  save a := some (t.write a.store)
  load salts file :=
    match file.bind t.read with
    | some store => store.backend
    | none => .new b cfg salts

def blank (b : Bcrypt) (cfg : DefaultUsers) (t : StoreText) : Kept UserBackend (Option t.Text) :=
  ⟨.new b cfg (0, 0), none, fun _ => none⟩

end UserBackend

def blankRequests : Kept (List (UserRequest × Nat)) (Option (List (UserRequest × Nat))) :=
  ⟨[], none, fun _ => none⟩

section
variable {b : Bcrypt} {cfg : DefaultUsers} {a : UserBackend} {m : Registry}

def UserEntry.Of (b : Bcrypt) (username : String) (entry : UserEntry)
    (account : String × List UserTag) : Prop :=
  entry.username = username ∧ entry.tags = account.2 ∧
    ∃ salt, entry.passwordHash = b.hash salt account.1

structure UserBackend.Represents (b : Bcrypt) (a : UserBackend) (m : Registry) : Prop where
  users : ∀ username, Option.Rel (UserEntry.Of b username) (a.users.get? username)
    (m.users username)
  permissions : ∀ key, a.permissions.get? key = m.permissions key

theorem UserEntry.new_of (salt : Nat) (username password : String) (tags : List UserTag) :
    (UserEntry.new b salt username password tags).Of b username (password, tags) :=
  ⟨rfl, rfl, salt, rfl⟩

theorem rel_insert {R : String → UserEntry → String × List UserTag → Prop}
    {users : FinMap String UserEntry} {known : String → Option (String × List UserTag)}
    (rel : ∀ u, Option.Rel (R u) (users.get? u) (known u)) {name : String} {entry : UserEntry}
    {account : String × List UserTag} (new : R name entry account) (u : String) :
    Option.Rel (R u) ((users.insert name entry).get? u)
      (Function.update known name (some account) u) := by
  rw [FinMap.get?_insert]
  by_cases same : u = name
  · rw [if_pos same, same, Function.update_self]
    exact .some new
  · rw [if_neg same, Function.update_of_ne same]
    exact rel u

theorem get?_insert_update {κ ν : Type} [DecidableEq κ] {known : FinMap κ ν} {f : κ → Option ν}
    (same : ∀ k, known.get? k = f k) (key : κ) (value : ν) (k : κ) :
    (known.insert key value).get? k = Function.update f key (some value) k := by
  rw [FinMap.get?_insert]
  by_cases here : k = key
  · rw [if_pos here, here, Function.update_self]
  · rw [if_neg here, Function.update_of_ne here]
    exact same k

theorem represents_new (salts : Nat × Nat) :
    (UserBackend.new b cfg salts).Represents b (.defaults cfg) where
  users := rel_insert (rel_insert (fun _ => .none) (UserEntry.new_of ..)) (UserEntry.new_of ..)
  permissions := get?_insert_update (get?_insert_update (fun _ => rfl) _ _) _ _

theorem UserBackend.Represents.contains_eq_false (r : a.Represents b m) (username : String) :
    a.users.contains username = false ↔ m.users username = none := by
  have rel := r.users username
  rw [FinMap.contains, Option.isSome_eq_false_iff, Option.isNone_iff_eq_none]
  generalize a.users.get? username = entry, m.users username = account at rel
  cases rel with
  | none => exact iff_of_true rfl rfl
  | some _ => exact iff_of_false (Option.some_ne_none _) (Option.some_ne_none _)

theorem UserBackend.Represents.modify (r : a.Represents b m) (name : String)
    {f : UserEntry → UserEntry} {g : String × List UserTag → String × List UserTag}
    (changes : ∀ entry account, entry.Of b name account → (f entry).Of b name (g account)) :
    UserBackend.Represents b { a with users := a.users.modify name f }
      { m with users := Function.update m.users name ((m.users name).map g) } := by
  refine ⟨fun u => ?_, r.permissions⟩
  change Option.Rel _ ((a.users.modify name f).get? u) (Function.update m.users name _ u)
  rw [FinMap.get?_modify]
  by_cases same : u = name
  · have rel := r.users name
    rw [if_pos same, same, Function.update_self]
    generalize a.users.get? name = entry, m.users name = account at rel
    cases rel with
    | none => exact .none
    | some here => exact .some (changes _ _ here)
  · rw [if_neg same, Function.update_of_ne same]
    exact r.users u

theorem replied_snd (a : UserBackend) (error success : Nat) (result : Except String UserBackend) :
    (a.replied error success result).2 = a.orSame result := by
  cases result <;> rfl

theorem orSame_modify (name text : String) (f : UserEntry → UserEntry) :
    a.orSame (if !a.users.contains name then .error text
      else .ok { a with users := a.users.modify name f }) =
        { a with users := a.users.modify name f } := by
  cases known : a.users.contains name with
  | true => rfl
  | false =>
    have missing : a.users.get? name = none :=
      Option.isNone_iff_eq_none.mp (Option.isSome_eq_false_iff.mp known)
    rw [FinMap.modify_missing missing]
    rfl

theorem represents_setUser (r : a.Represents b m) (salt : Nat) (name password : String)
    (tags : List UserTag) :
    UserBackend.Represents b
      { a with users := a.users.insert name (.new b salt name password tags) }
      (m.setUser name (password, tags)) :=
  ⟨rel_insert r.users (UserEntry.new_of ..), r.permissions⟩

theorem represents_addUser (r : a.Represents b m) (salt : Nat) (name password : String)
    (tags : List UserTag) : (a.orSame (a.addUser b salt name password tags)).Represents b
      (if m.users name = none then m.setUser name (password, tags) else m) := by
  have known := r.contains_eq_false name
  unfold UserBackend.addUser
  by_cases missing : m.users name = none
  · rw [known.mpr missing, if_pos missing]
    exact represents_setUser r salt name password tags
  · rw [Bool.eq_true_of_not_eq_false fun absent => missing (known.mp absent), if_neg missing]
    exact r

theorem represents_changePassword (r : a.Represents b m) (salt : Nat) (name password : String) :
    (a.orSame (a.changePassword b salt name password)).Represents b
      { m with
        users := Function.update m.users name
          ((m.users name).map fun account => (password, account.2)) } := by
  unfold UserBackend.changePassword
  rw [orSame_modify]
  refine r.modify name ?_
  rintro entry account ⟨named, tags, -⟩
  exact ⟨named, tags, salt, rfl⟩

theorem represents_setUserTags (r : a.Represents b m) (name : String) (tags : List UserTag) :
    (a.orSame (a.setUserTags name tags)).Represents b
      { m with
        users := Function.update m.users name
          ((m.users name).map fun account => (account.1, tags)) } := by
  unfold UserBackend.setUserTags
  rw [orSame_modify]
  refine r.modify name ?_
  rintro entry account ⟨named, -, hashed⟩
  exact ⟨named, rfl, hashed⟩

theorem represents_upsertUser (r : a.Represents b m) (salt : Nat) (name : String)
    (password : Option String) (tags : List UserTag) :
    (a.upsertUser b salt name password tags).Represents b
      (m.setUser name (password.getD "changeme", tags)) := by
  have known := r.contains_eq_false name
  unfold UserBackend.upsertUser UserBackend.addUser
  by_cases missing : m.users name = none
  · rw [known.mpr missing]
    exact represents_setUser r salt name _ tags
  · rw [Bool.eq_true_of_not_eq_false fun absent => missing (known.mp absent)]
    obtain ⟨account, there⟩ := Option.ne_none_iff_exists'.mp missing
    have both := represents_setUserTags
      (represents_changePassword r salt name (password.getD "changeme")) name tags
    simp only [Function.update_self, Function.update_idem, there, Option.map_some] at both
    exact both

theorem represents_deleteUser (r : a.Represents b m) (name : String) :
    (a.orSame (a.deleteUser cfg name)).Represents b (m.drop cfg name) := by
  have known := r.contains_eq_false name
  unfold UserBackend.deleteUser Registry.drop
  by_cases guest : name = cfg.user
  · rw [if_pos guest, if_pos (.inl guest)]
    exact r
  rw [if_neg guest]
  by_cases missing : m.users name = none
  · rw [known.mpr missing, if_pos (show (!false) = true from rfl), if_pos (Or.inr missing)]
    exact r
  rw [Bool.eq_true_of_not_eq_false fun absent => missing (known.mp absent),
    if_neg (show ¬ (!true) = true from Bool.false_ne_true), if_neg (not_or.mpr ⟨guest, missing⟩)]
  constructor
  · intro u
    change Option.Rel _ ((a.users.erase name).get? u) (Function.update m.users name none u)
    rw [FinMap.get?_erase]
    by_cases same : u = name
    · rw [if_pos same, same, Function.update_self]
      exact .none
    · rw [if_neg same, Function.update_of_ne same]
      exact r.users u
  · intro key
    change (a.permissions.retain fun key _ => key.1 != name).get? key = _
    rw [FinMap.get?_retain, r.permissions]
    change Option.filter (fun _ => key.1 != name) (m.permissions key) =
      if key.1 = name then none else m.permissions key
    generalize m.permissions key = known
    by_cases same : key.1 = name
    · cases known <;> simp [same]
    · cases known <;> simp [same]

theorem represents_setPermissions (r : a.Represents b m) (path : String × String)
    (req : Permission) : (a.orSame (a.setPermissions path.1 path.2 req)).Represents b
      (if m.users path.1 = none then m
        else { m with permissions := Function.update m.permissions path (some req) }) := by
  have known := r.contains_eq_false path.1
  unfold UserBackend.setPermissions
  by_cases missing : m.users path.1 = none
  · rw [known.mpr missing, if_pos missing]
    exact r
  · rw [Bool.eq_true_of_not_eq_false fun absent => missing (known.mp absent), if_neg missing]
    exact ⟨r.users, get?_insert_update r.permissions path req⟩

theorem represents_serve (r : a.Represents b m) (salt : Nat) (request : UserRequest) :
    (a.serve b cfg salt request).2.Represents b (m.asks cfg request) := by
  cases request with
  | addUser username password tags =>
    rw [UserBackend.serve, replied_snd]
    exact represents_addUser r salt username password tags
  | deleteUser name =>
    rw [UserBackend.serve, replied_snd]
    exact represents_deleteUser r name
  | changePassword name password =>
    rw [UserBackend.serve, replied_snd]
    exact represents_changePassword r salt name password
  | upsertUser name password tags => exact represents_upsertUser r salt name password tags
  | bulkDeleteUsers names =>
    change (names.foldl _ a).Represents b (names.foldl _ m)
    induction names generalizing a m with
    | nil => exact r
    | cons name names ih => exact ih (represents_deleteUser r name)
  | setPermissions path req =>
    rw [UserBackend.serve, replied_snd]
    exact represents_setPermissions r path req

theorem represents_backend (r : a.Represents b m) : a.store.backend.Represents b m := by
  have named : ∀ e ∈ a.users.entries, e.2.username = e.1 := by
    intro e member
    have rel := r.users e.1
    rw [FinMap.get?_eq_some_iff_mem.mpr member] at rel
    generalize m.users e.1 = account at rel
    cases rel with
    | some of => exact of.1
  constructor
  · intro username
    have same : a.store.backend.users =
        (a.users.entries.map fun e => (e.1, e.2)).foldl (fun users p => users.insert p.1 p.2)
          ∅ := by
      change (a.users.entries.map (·.2)).foldl _ _ = _
      rw [List.foldl_map, List.foldl_map]
      refine List.foldl_ext _ _ _ fun users e member => ?_
      rw [named e member]
    rw [same, FinMap.get?_foldl_entries]
    exact r.users username
  · intro key
    exact (FinMap.get?_foldl_entries a.permissions key).trans (r.permissions key)

end

end RocketmqBroker
