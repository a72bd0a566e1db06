import RocketmqBroker.Access.UserDatabase

/-!
Who can log in, over every run of requests, copies, writes and restarts in any order. A torn file
cannot be read, so after it everything begins again with the accounts of the configuration; nothing
else is lost that was answered, as long as one save is under way at a time.
-/
namespace RocketmqBroker
open Run Saving

/-- A request with its salt, a copy, a write or a restart. -/
abbrev UserEvent (t : StoreText) := Event (UserRequest × Nat) (Nat × Nat) (Option t.Text)

abbrev requestStep := step (changes (UserRequest × Nat) (Nat × Nat))

namespace UserBackend

/-- The state after a run from the first start on. -/
def after (b : Bcrypt) (cfg : DefaultUsers) (t : StoreText) (es : List (UserEvent t)) :
    Kept UserBackend (Option t.Text) := run (step (keeper b cfg t)) (blank b cfg t) es

def reloaded (b : Bcrypt) (cfg : DefaultUsers) (t : StoreText) (es : List (UserEvent t))
    (salts : Nat × Nat) : UserBackend := (keeper b cfg t).load salts (after b cfg t es).file

structure Obeys (b : Bcrypt) (cfg : DefaultUsers) (a : UserBackend) (m : Registry) : Prop where
  login : ∀ username password loopback, a.authenticate b cfg username password loopback = .ok () ↔
    ∃ account, m.users username = some account ∧ b.alike account.1 password = true ∧
      (username = cfg.user → loopback = true)
  vhosts : ∀ username vhost, a.checkVhostAccess username vhost =
    (m.permissions (username, vhost)).isSome
  permissions : ∀ key, a.permissions.get? key = m.permissions key

end UserBackend

def requestsAfter {t : StoreText} (es : List (UserEvent t)) :
    Kept (List (UserRequest × Nat)) (Option (List (UserRequest × Nat))) :=
  run requestStep blankRequests (es.map Event.blank)

/-- No write leaves a text that can be read and is not the one that was to be written. -/
def TornUnreadable (t : StoreText) (es : List (UserEvent t)) : Prop :=
  ∀ e ∈ es, ∀ left ∈ e.left?, left.bind t.read = none

section
variable {b : Bcrypt} {cfg : DefaultUsers} {t : StoreText} {a : UserBackend} {m : Registry}

theorem UserBackend.Represents.obeys (r : a.Represents b m) : a.Obeys b cfg m where
  login username password loopback := by
    have rel := r.users username
    unfold UserBackend.authenticate
    generalize a.users.get? username = entry, m.users username = account at rel
    cases rel with
    | none =>
      refine iff_of_false (fun passed => by cases passed) ?_
      rintro ⟨account, missing, -⟩
      exact absurd missing.symm (Option.some_ne_none _)
    | @some entry account of =>
      obtain ⟨-, -, salt, hashed⟩ := of
      have verified : entry.verifyPassword b password = b.alike account.1 password := by
        rw [UserEntry.verifyPassword, hashed, b.verify_hash]
      have known : (∃ account', some account = some account' ∧ b.alike account'.1 password = true ∧
          (username = cfg.user → loopback = true)) ↔
          b.alike account.1 password = true ∧ (username = cfg.user → loopback = true) := by simp
      rw [known]
      dsimp only
      by_cases remote : username = cfg.user ∧ loopback = false
      · rw [if_pos remote]
        refine iff_of_false (fun passed => by cases passed) fun allowed => ?_
        rw [allowed.2 remote.1] at remote
        exact Bool.noConfusion remote.2
      · rw [if_neg remote, verified]
        have near : username = cfg.user → loopback = true := fun guest =>
          Bool.eq_true_of_not_eq_false fun far => remote ⟨guest, far⟩
        cases b.alike account.1 password with
        | true => exact iff_of_true rfl ⟨rfl, near⟩
        | false => exact iff_of_false (fun passed => by cases passed) fun allowed =>
            Bool.noConfusion allowed.1
  vhosts username vhost := by
    rw [UserBackend.checkVhostAccess, FinMap.contains, r.permissions]
  permissions := r.permissions

theorem represents_fresh (salts : Nat × Nat) {file : Option t.Text}
    (missing : file.bind t.read = none) :
    ((UserBackend.keeper b cfg t).load salts file).Represents b (.told cfg []) := by
  simp only [UserBackend.keeper, missing]
  exact represents_new salts

theorem represents_apply (rs : List (UserRequest × Nat)) (a : UserBackend) (r : UserRequest × Nat)
    (represents : a.Represents b (.told cfg rs)) :
    ((UserBackend.keeper b cfg t).apply a r).Represents b (.told cfg (rs ++ [r])) := by
  rw [Registry.told, List.foldl_append]
  exact represents_serve represents r.2 r.1

theorem represents_load (salts : Nat × Nat) (rs : List (UserRequest × Nat)) (a : UserBackend)
    (represents : a.Represents b (.told cfg rs)) :
    ((UserBackend.keeper b cfg t).load salts ((UserBackend.keeper b cfg t).save a)).Represents b
      (.told cfg rs) := by
  simp only [UserBackend.keeper, Option.bind_some, t.read_write]
  exact represents_backend represents

theorem follows_blank :
    Reflects (UserBackend.keeper b cfg t) (fun rs a => a.Represents b (.told cfg rs))
      blankRequests (UserBackend.blank b cfg t) :=
  ⟨represents_new _, fun salts => represents_fresh salts rfl, fun _ => .none⟩

theorem follows_requests {es : List (UserEvent t)} (unread : TornUnreadable t es) :
    Reflects (UserBackend.keeper b cfg t) (fun rs a => a.Represents b (.told cfg rs))
      (requestsAfter es) (UserBackend.after b cfg t es) :=
  follows_blank.run represents_apply represents_load fun e member left torn salts =>
    represents_fresh salts (unread e member left torn)

theorem reloaded_represents {es : List (UserEvent t)} (unread : TornUnreadable t es)
    (salts : Nat × Nat) :
    (UserBackend.reloaded b cfg t es salts).Represents b (.told cfg (requestsAfter es).saved) := by
  have torn : TornUnreadable t (es ++ [.restart salts .whole]) := by
    intro e member
    rcases List.mem_append.mp member with old | last
    · exact unread e old
    · rw [List.mem_singleton.mp last]
      exact fun left none => absurd none (Option.not_mem_none left)
  have follows : (UserBackend.after b cfg t (es ++ [.restart salts .whole])).memory.Represents b
      (.told cfg (requestsAfter (es ++ [.restart salts .whole])).memory) :=
    (follows_requests torn).memory
  rw [requestsAfter, UserBackend.after, List.map_append, run_append, run_append] at follows
  exact follows

structure Registry.Sound (cfg : DefaultUsers) (m : Registry) : Prop where
  guest : m.users cfg.user ≠ none
  owned : ∀ key, m.permissions key ≠ none → m.users key.1 ≠ none

theorem update_ne_none {κ ν : Type} [DecidableEq κ] {f : κ → Option ν} {k k' : κ}
    {value : Option ν} (there : f k' ≠ none) (some : value ≠ none) :
    Function.update f k value k' ≠ none := by
  by_cases same : k' = k
  · rw [same, Function.update_self]
    exact some
  · rw [Function.update_of_ne same]
    exact there

theorem Registry.Sound.setUser (sound : m.Sound cfg) (name : String)
    (account : String × List UserTag) : (m.setUser name account).Sound cfg where
  guest := update_ne_none sound.guest (Option.some_ne_none _)
  owned key there := update_ne_none (sound.owned key there) (Option.some_ne_none _)

theorem Registry.Sound.drop (sound : m.Sound cfg) (name : String) :
    (m.drop cfg name).Sound cfg := by
  unfold Registry.drop
  split
  · exact sound
  · rename_i deleted
    obtain ⟨other, -⟩ := not_or.mp deleted
    constructor
    · change Function.update m.users name none cfg.user ≠ none
      rw [Function.update_of_ne (Ne.symm other)]
      exact sound.guest
    · intro key there
      change Function.update m.users name none key.1 ≠ none
      by_cases same : key.1 = name
      · exact absurd (if_pos same) there
      · rw [Function.update_of_ne same]
        exact sound.owned key fun missing => there ((if_neg same).trans missing)

theorem Registry.Sound.asks (sound : m.Sound cfg) (request : UserRequest) :
    (m.asks cfg request).Sound cfg := by
  cases request with
  | addUser username password tags =>
    change (if m.users username = none then m.setUser username (password, tags) else m).Sound cfg
    split
    · exact sound.setUser _ _
    · exact sound
  | deleteUser name => exact sound.drop name
  | changePassword name password =>
    have kept : ∀ u, m.users u ≠ none → Function.update m.users name
        ((m.users name).map fun account => (password, account.2)) u ≠ none := by
      intro u there
      by_cases same : u = name
      · rw [same, Function.update_self]
        exact fun missing => (same ▸ there) (Option.map_eq_none_iff.mp missing)
      · rw [Function.update_of_ne same]
        exact there
    exact ⟨kept _ sound.guest, fun key there => kept _ (sound.owned key there)⟩
  | upsertUser name password tags => exact sound.setUser _ _
  | bulkDeleteUsers names =>
    change (names.foldl _ m).Sound cfg
    induction names generalizing m with
    | nil => exact sound
    | cons name names ih => exact ih (sound.drop name)
  | setPermissions path req =>
    change (if m.users path.1 = none then m
      else { m with permissions := Function.update m.permissions path (some req) }).Sound cfg
    split
    · exact sound
    · rename_i known
      refine ⟨sound.guest, fun key there => ?_⟩
      by_cases same : key = path
      · rw [same]
        exact known
      · refine sound.owned key fun missing => there ?_
        change Function.update m.permissions path (some req) key = none
        rw [Function.update_of_ne same]
        exact missing

theorem told_sound (cfg : DefaultUsers) (rs : List (UserRequest × Nat)) :
    (Registry.told cfg rs).Sound cfg := by
  have start : (Registry.defaults cfg).Sound cfg := by
    have guest : (Registry.defaults cfg).users cfg.user ≠ none :=
      update_ne_none (by rw [Function.update_self]; exact Option.some_ne_none _)
        (Option.some_ne_none _)
    refine ⟨guest, fun key there => ?_⟩
    change Function.update (Function.update (fun _ => none) (cfg.user, "/") _) (cfg.adminUser, "/")
      _ key ≠ none at there
    by_cases admin : key = (cfg.adminUser, "/")
    · have here : (Registry.defaults cfg).users cfg.adminUser = some _ := Function.update_self ..
      rw [admin, here]
      exact Option.some_ne_none _
    · rw [Function.update_of_ne admin] at there
      by_cases user : key = (cfg.user, "/")
      · rw [user]
        exact guest
      · rw [Function.update_of_ne user] at there
        exact absurd rfl there
  unfold Registry.told
  generalize Registry.defaults cfg = m at start ⊢
  induction rs generalizing m with
  | nil => exact start
  | cons r rs ih => exact ih _ (start.asks r.1)

theorem UserBackend.Represents.sound (r : a.Represents b m) (sound : m.Sound cfg) :
    a.users.contains cfg.user = true ∧
      ∀ key, a.permissions.contains key = true → a.users.contains key.1 = true := by
  have known (username : String) (there : m.users username ≠ none) :
      a.users.contains username = true :=
    Bool.eq_true_of_not_eq_false fun absent => there ((r.contains_eq_false username).mp absent)
  refine ⟨known _ sound.guest, fun key there => known _ (sound.owned key ?_)⟩
  rw [FinMap.contains, r.permissions] at there
  exact Option.isSome_iff_ne_none.mp there

end

/-- Logins and permissions are those of the requests that memory carries, and after a restart of
    those that the file carries. The requests carried say nothing of hashes, texts or copies:
    they are appended to memory, copied, written and read back. -/
theorem users_follow_requests (b : Bcrypt) (cfg : DefaultUsers) (t : StoreText)
    (es : List (UserEvent t)) (unread : TornUnreadable t es) (salts : Nat × Nat) :
    (UserBackend.after b cfg t es).memory.Obeys b cfg (.told cfg (requestsAfter es).memory) ∧
      (UserBackend.reloaded b cfg t es salts).Obeys b cfg (.told cfg (requestsAfter es).saved) :=
  ⟨(follows_requests unread).memory.obeys, (reloaded_represents unread salts).obeys⟩

def plainBcrypt : Bcrypt where
  hash _ password := password
  verify attempt hash := hash == attempt
  alike password attempt := password == attempt
  alike_refl := beq_self_eq_true
  verify_hash _ _ _ := rfl

def plainText : StoreText := ⟨Option UserStore, some, id, fun _ => rfl⟩

def guestAndAdmin : DefaultUsers := ⟨"guest", "guest", "admin", "1234"⟩

/-- A user is added, and the write of it breaks off before a restart. -/
def tornRun : List (UserEvent plainText) :=
  [.restart (0, 1) .whole, .change (.addUser "app" "secret" [], 2), .copy 1,
    .write 1 (.torn (some none)), .restart (3, 4) .whole]

theorem tornRun_unreadable : TornUnreadable plainText tornRun := by
  intro e member left torn
  simp only [tornRun, List.mem_cons, List.not_mem_nil, or_false] at member
  obtain rfl | rfl | rfl | rfl | rfl := member
  all_goals cases torn
  rfl

theorem users_follow_requests_torn :
    let a := (UserBackend.after plainBcrypt guestAndAdmin plainText tornRun).memory
    a.authenticate plainBcrypt guestAndAdmin "guest" "guest" true = .ok () ∧
      a.authenticate plainBcrypt guestAndAdmin "app" "secret" true ≠ .ok () := by
  have login := (users_follow_requests plainBcrypt guestAndAdmin plainText tornRun
    tornRun_unreadable (5, 6)).1.login
  refine ⟨(login "guest" "guest" true).mpr ⟨("guest", [.administrator]), rfl, rfl, fun _ => rfl⟩,
    ?_⟩
  intro passed
  obtain ⟨account, there, -⟩ := (login "app" "secret" true).mp passed
  have missing : (Registry.told guestAndAdmin (requestsAfter tornRun).memory).users "app" = none :=
    rfl
  exact absurd (missing.symm.trans there).symm (Option.some_ne_none _)

/-- Whatever comes in between, guest cannot be got rid of, and no permission outlives its user. -/
theorem permissions_have_users (b : Bcrypt) (cfg : DefaultUsers) (t : StoreText)
    (es : List (UserEvent t)) (unread : TornUnreadable t es) (salts : Nat × Nat) :
    ∀ a ∈ [(UserBackend.after b cfg t es).memory, UserBackend.reloaded b cfg t es salts],
      a.users.contains cfg.user = true ∧
        ∀ key, a.permissions.contains key = true → a.users.contains key.1 = true := by
  intro a member
  rcases List.mem_cons.mp member with rfl | member
  · exact (follows_requests unread).memory.sound (told_sound cfg _)
  · rw [List.mem_singleton.mp member]
    exact (reloaded_represents unread salts).sound (told_sound cfg _)

theorem permissions_have_users_torn :
    let a := UserBackend.reloaded plainBcrypt guestAndAdmin plainText tornRun (5, 6)
    a.users.contains "guest" = true ∧
      ∀ key, a.permissions.contains key = true → a.users.contains key.1 = true :=
  permissions_have_users plainBcrypt guestAndAdmin plainText tornRun tornRun_unreadable (5, 6) _
    (List.mem_cons_of_mem _ (List.mem_singleton_self _))

/-- A request that has been written is never lost: if one save at a time is under way and no
    write breaks off, it stays among the requests that memory and file carry, behind those that
    were carried before it, and these are the ones that logins and permissions go by. -/
theorem written_request_kept (b : Bcrypt) (cfg : DefaultUsers) (t : StoreText)
    (request : UserRequest) (salt saver : Nat) (before during writing rest : List (UserEvent t))
    (first : ∀ e ∈ during, e.Spares saver) (second : ∀ e ∈ writing, e.Spares saver)
    (along : Along (step (UserBackend.keeper b cfg t)) Orderly (UserBackend.blank b cfg t)
      (before ++ .change (request, salt) :: (during ++ .copy saver ::
        (writing ++ .write saver .whole :: rest)))) (salts : Nat × Nat) :
    let es := before ++ .change (request, salt) :: (during ++ .copy saver ::
      (writing ++ .write saver .whole :: rest))
    let carried := (requestsAfter before).memory ++ [(request, salt)]
    (carried <+: (requestsAfter es).memory ∧ carried <+: (requestsAfter es).saved) ∧
      (UserBackend.after b cfg t es).memory.Obeys b cfg (.told cfg (requestsAfter es).memory) ∧
      (UserBackend.reloaded b cfg t es salts).Obeys b cfg
        (.told cfg (requestsAfter es).saved) := by
  intro es carried
  have unread : TornUnreadable t es := by
    intro e inside left torn
    obtain ⟨past, future, split⟩ := List.append_of_mem inside
    have orderly := along_iff_split.mp along past e future split
    exact absurd (orderly.left?_eq_none ▸ torn) (Option.not_mem_none left)
  have blanked : es.map Event.blank = before.map Event.blank ++ .change (request, salt) ::
      (during.map Event.blank ++ .copy saver ::
        (writing.map Event.blank ++ .write saver .whole :: rest.map Event.blank)) := by
    simp only [es, List.map_append, List.map_cons, Event.blank, Written.blank]
  have orderly := follows_blank.along represents_apply represents_load along
  have start : InOrder blankRequests := by
    refine ⟨List.prefix_rfl, ?_, fun i j here => absurd rfl here⟩
    intro saver content copied
    exact absurd copied.symm (Option.some_ne_none _)
  obtain ⟨behind, -⟩ := saved_grows start orderly
  rw [show es.map Event.blank = _ from blanked] at orderly
  obtain ⟨early, changed, later⟩ := along_append.mp orderly
  obtain ⟨order, -⟩ := saved_grows start early
  have kept := written_kept (inOrder_step order changed).1 (spares_blank first)
    (spares_blank second) later
  have saved : carried <+: (requestsAfter es).saved := by
    rw [requestsAfter, blanked, run_append]
    simp only [carried, requestsAfter]
    exact kept
  exact ⟨⟨saved.trans behind.file, saved⟩, (follows_requests unread).memory.obeys,
    (reloaded_represents unread salts).obeys⟩

/-- Another user is added while the first one is being written, and is lost by a restart. -/
def crossedRun : List (UserEvent plainText) :=
  [.restart (0, 1) .whole, .change (.addUser "app" "secret" [], 2), .copy 1,
    .change (.addUser "late" "secret" [], 3), .write 1 .whole, .restart (4, 5) .failed]

theorem written_request_kept_crossed :
    let a := UserBackend.reloaded plainBcrypt guestAndAdmin plainText crossedRun (6, 7)
    (requestsAfter crossedRun).saved = [(.addUser "app" "secret" [], 2)] ∧
      (∃ more, (requestsAfter crossedRun).memory = (.addUser "app" "secret" [], 2) :: more) ∧
      a.authenticate plainBcrypt guestAndAdmin "app" "secret" true = .ok () := by
  intro a
  have spares : ∀ e ∈ [Event.change (UserRequest.addUser "late" "secret" [], 3)],
      @Event.Spares _ (Nat × Nat) (Option plainText.Text) 1 e := by
    intro e member
    rw [List.mem_singleton.mp member]
    trivial
  have along : Along (step (UserBackend.keeper plainBcrypt guestAndAdmin plainText)) Orderly
      (UserBackend.blank plainBcrypt guestAndAdmin plainText) crossedRun :=
    ⟨trivial, trivial, fun _ => rfl, trivial, trivial, trivial, trivial⟩
  obtain ⟨⟨⟨more, carried⟩, -⟩, -, reloaded⟩ := written_request_kept plainBcrypt guestAndAdmin
    plainText (.addUser "app" "secret" []) 2 1 [.restart (0, 1) .whole] []
    [.change (.addUser "late" "secret" [], 3)] [.restart (4, 5) .failed]
    (fun e none => absurd none List.not_mem_nil) spares along (6, 7)
  refine ⟨rfl, ⟨more, carried.symm⟩, (reloaded.login "app" "secret" true).mpr ?_⟩
  exact ⟨("secret", []), rfl, rfl, fun _ => rfl⟩

end RocketmqBroker
