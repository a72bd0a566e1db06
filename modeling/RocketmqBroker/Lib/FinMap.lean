import Mathlib.Data.List.AList

/-!
Finite maps with one value type, as association lists without repeated keys.
The order of the entries carries no meaning: every law below is about `get?`.
-/

abbrev FinMap (κ ν : Type) := AList (fun _ : κ => ν)

namespace FinMap
variable {κ ν : Type} [DecidableEq κ]

-- The operations of AList are stated for values that may depend on the key;
-- these are the same ones at a constant type, where keys can be rewritten.

def get? (m : FinMap κ ν) (k : κ) : Option ν := AList.lookup k m

def insert (m : FinMap κ ν) (k : κ) (v : ν) : FinMap κ ν := AList.insert k v m

def erase (m : FinMap κ ν) (k : κ) : FinMap κ ν := AList.erase k m

def keys (m : FinMap κ ν) : List κ := AList.keys m

def contains (m : FinMap κ ν) (k : κ) : Bool := (m.get? k).isSome

def modify (m : FinMap κ ν) (k : κ) (f : ν → ν) : FinMap κ ν :=
  match m.get? k with
  | some v => m.insert k (f v)
  | none => m

def mapVals (m : FinMap κ ν) (f : κ → ν → ν) : FinMap κ ν :=
  ⟨m.entries.map fun e => ⟨e.1, f e.1 e.2⟩, by
    have keys : (m.entries.map fun e => (⟨e.1, f e.1 e.2⟩ : Sigma fun _ : κ => ν)).keys =
        m.entries.keys := by simp [List.keys, Function.comp_def]
    unfold List.NodupKeys
    rw [keys]
    exact m.keys_nodup⟩

def retain (m : FinMap κ ν) (p : κ → ν → Bool) : FinMap κ ν :=
  ⟨m.entries.filter fun e => p e.1 e.2, by
    exact m.nodupKeys.sublist List.filter_sublist⟩

def orInsert (m : FinMap κ ν) (k : κ) (v : ν) : FinMap κ ν :=
  match m.get? k with
  | some _ => m
  | none => m.insert k v

@[simp] theorem get?_empty (k : κ) : (∅ : FinMap κ ν).get? k = none := rfl

theorem get?_insert (m : FinMap κ ν) (k k' : κ) (v : ν) :
    (m.insert k v).get? k' = if k' = k then some v else m.get? k' := by
  unfold get? insert
  by_cases same : k' = k
  · subst same; simp
  · rw [AList.lookup_insert_ne same, if_neg same]

@[simp] theorem get?_insert_self (m : FinMap κ ν) (k : κ) (v : ν) :
    (m.insert k v).get? k = some v := by
  rw [get?_insert, if_pos rfl]

theorem get?_erase (m : FinMap κ ν) (k k' : κ) :
    (m.erase k).get? k' = if k' = k then none else m.get? k' := by
  unfold get? erase
  by_cases same : k' = k
  · subst same; simp
  · rw [AList.lookup_erase_ne same, if_neg same]

theorem get?_modify (m : FinMap κ ν) (k k' : κ) (f : ν → ν) :
    (m.modify k f).get? k' = if k' = k then (m.get? k).map f else m.get? k' := by
  unfold modify
  split
  · rename_i v hv
    rw [get?_insert, hv, Option.map_some]
  · rename_i missing
    by_cases same : k' = k
    · subst same; simp [missing]
    · rw [if_neg same]

theorem modify_modify (m : FinMap κ ν) (k : κ) (f g : ν → ν) :
    (m.modify k f).modify k g = m.modify k (g ∘ f) := by
  unfold modify
  cases found : m.get? k with
  | none => simp [found]
  | some v =>
    simp only [get?_insert_self]
    exact AList.insert_insert m

theorem get?_orInsert (m : FinMap κ ν) (k k' : κ) (v : ν) :
    (m.orInsert k v).get? k' = if k' = k then some ((m.get? k).getD v) else m.get? k' := by
  unfold orInsert
  split
  · rename_i old hv
    by_cases same : k' = k
    · subst same; simp [hv]
    · rw [if_neg same]
  · rename_i missing
    rw [get?_insert, missing, Option.getD_none]

theorem dlookup_cons (k k' : κ) (v : ν) (es : List (Sigma fun _ : κ => ν)) :
    List.dlookup k (⟨k', v⟩ :: es) = if k = k' then some v else List.dlookup k es := by
  by_cases same : k = k'
  · subst same; simp
  · rw [if_neg same]
    exact List.dlookup_cons_ne es ⟨k', v⟩ same

theorem get?_mapVals (m : FinMap κ ν) (f : κ → ν → ν) (k : κ) :
    (m.mapVals f).get? k = (m.get? k).map (f k) := by
  obtain ⟨entries, nodup⟩ := m
  simp only [get?, AList.lookup, mapVals]
  clear nodup
  induction entries with
  | nil => rfl
  | cons e es ih =>
    obtain ⟨k', v⟩ := e
    rw [List.map_cons, dlookup_cons, dlookup_cons, ih]
    by_cases same : k = k'
    · subst same; simp
    · simp [same]

theorem get?_retain (m : FinMap κ ν) (p : κ → ν → Bool) (k : κ) :
    (m.retain p).get? k = (m.get? k).filter (p k) := by
  obtain ⟨entries, nodup⟩ := m
  simp only [get?, AList.lookup, retain]
  induction entries with
  | nil => rfl
  | cons e es ih =>
    obtain ⟨k', v⟩ := e
    obtain ⟨fresh, others⟩ := List.nodupKeys_cons.mp nodup
    rw [List.filter_cons, dlookup_cons]
    by_cases same : k = k'
    · subst same
      have absent : List.dlookup k es = none := List.dlookup_eq_none.mpr fresh
      rw [absent, Option.filter_none] at ih
      cases hp : p k v with
      | true => simp [Option.filter, hp]
      | false => simp [ih others, Option.filter, hp]
    · rw [if_neg same, ← ih others]
      split
      · rw [dlookup_cons, if_neg same]
      · rfl

theorem get?_eq_some_iff_mem {m : FinMap κ ν} {k : κ} {v : ν} :
    m.get? k = some v ↔ (⟨k, v⟩ : Sigma fun _ : κ => ν) ∈ m.entries :=
  AList.mem_lookup_iff

theorem mem_keys_iff {m : FinMap κ ν} {k : κ} : k ∈ m.keys ↔ ∃ v, m.get? k = some v := by
  unfold keys get?
  rw [← AList.mem_keys, ← AList.lookup_isSome, Option.isSome_iff_exists]

theorem keys_insert (m : FinMap κ ν) (k : κ) (v : ν) :
    (m.insert k v).keys = k :: m.keys.erase k := AList.keys_insert m

theorem mem_keys_insert {m : FinMap κ ν} {k k' : κ} {v : ν} :
    k' ∈ (m.insert k v).keys ↔ k' = k ∨ k' ∈ m.keys := AList.mem_insert m

theorem keys_erase (m : FinMap κ ν) (k : κ) : (m.erase k).keys = m.keys.erase k :=
  AList.keys_erase k m

theorem contains_iff_mem_keys {m : FinMap κ ν} {k : κ} : m.contains k = true ↔ k ∈ m.keys := by
  rw [contains, Option.isSome_iff_exists, mem_keys_iff]

theorem contains_modify (m : FinMap κ ν) (k k' : κ) (f : ν → ν) :
    (m.modify k f).contains k' = m.contains k' := by
  unfold contains
  rw [get?_modify]
  split
  · rename_i same
    rw [same, Option.isSome_map]
  · rfl

theorem contains_mapVals (m : FinMap κ ν) (f : κ → ν → ν) (k : κ) :
    (m.mapVals f).contains k = m.contains k := by
  unfold contains
  rw [get?_mapVals, Option.isSome_map]

theorem contains_orInsert {m : FinMap κ ν} {k k' : κ} {v : ν} :
    (m.orInsert k v).contains k' = true ↔ m.contains k' = true ∨ k' = k := by
  unfold contains
  rw [get?_orInsert]
  split
  · rename_i same
    exact iff_of_true rfl (.inr same)
  · rename_i other
    exact (or_iff_left other).symm

theorem contains_erase {m : FinMap κ ν} {k k' : κ} :
    (m.erase k).contains k' = true ↔ k' ≠ k ∧ m.contains k' = true := by
  unfold contains
  rw [get?_erase]
  split
  · rename_i same
    exact iff_of_false (fun h => by cases h) fun h => h.1 same
  · rename_i other
    exact (and_iff_right other).symm

theorem contains_orInsert_ne {m : FinMap κ ν} {k k' : κ} (other : k' ≠ k) (v : ν) :
    (m.orInsert k v).contains k' = m.contains k' := by
  unfold contains
  rw [get?_orInsert, if_neg other]

theorem contains_erase_ne {m : FinMap κ ν} {k k' : κ} (other : k' ≠ k) :
    (m.erase k).contains k' = m.contains k' := by
  unfold contains
  rw [get?_erase, if_neg other]

theorem contains_erase_self {m : FinMap κ ν} {k : κ} : (m.erase k).contains k = false := by
  rw [contains, get?_erase, if_pos rfl]
  rfl

/-! Where a change finds nothing to change. -/

theorem erase_missing {m : FinMap κ ν} {k : κ} (missing : m.get? k = none) : m.erase k = m := by
  have absent : k ∉ m.entries.keys := AList.lookup_eq_none.mp missing
  exact AList.ext (List.kerase_of_notMem_keys absent)

theorem modify_missing {m : FinMap κ ν} {k : κ} (missing : m.get? k = none) (f : ν → ν) :
    m.modify k f = m := by
  simp [modify, missing]

theorem orInsert_present {m : FinMap κ ν} {k : κ} (present : m.contains k = true) (v : ν) :
    m.orInsert k v = m := by
  obtain ⟨old, found⟩ := Option.isSome_iff_exists.mp present
  simp [orInsert, found]

omit [DecidableEq κ] in
theorem mapVals_still {m : FinMap κ ν} {f : κ → ν → ν} (still : ∀ e ∈ m.entries, f e.1 e.2 = e.2) :
    m.mapVals f = m := by
  refine AList.ext ?_
  change m.entries.map (fun e => (⟨e.1, f e.1 e.2⟩ : Sigma fun _ : κ => ν)) = m.entries
  calc m.entries.map (fun e => (⟨e.1, f e.1 e.2⟩ : Sigma fun _ : κ => ν))
      = m.entries.map id := List.map_congr_left fun e member => by rw [still e member]; rfl
    _ = m.entries := List.map_id _

omit [DecidableEq κ] in
theorem retain_all {m : FinMap κ ν} {p : κ → ν → Bool} (all : ∀ e ∈ m.entries, p e.1 e.2 = true) :
    m.retain p = m :=
  AList.ext (List.filter_eq_self.mpr all)

omit [DecidableEq κ] in
theorem keys_retain_none {m : FinMap κ ν} {p : κ → ν → Bool}
    (none : ∀ e ∈ m.entries, p e.1 e.2 = false) : (m.retain p).keys = [] := by
  have nothing : (m.retain p).entries = [] := by
    refine List.filter_eq_nil_iff.mpr fun e member => ?_
    rw [none e member]
    exact Bool.false_ne_true
  change (m.retain p).entries.keys = []
  rw [nothing]
  rfl

theorem get?_foldl_erase (ks : List κ) (m : FinMap κ ν) (k : κ) :
    (ks.foldl erase m).get? k = if k ∈ ks then none else m.get? k := by
  induction ks generalizing m with
  | nil => simp
  | cons first rest ih =>
    rw [List.foldl_cons, ih, get?_erase]
    by_cases later : k ∈ rest
    · rw [if_pos later, if_pos (List.mem_cons_of_mem _ later)]
    · rw [if_neg later]
      by_cases same : k = first
      · rw [if_pos same, if_pos (same ▸ List.mem_cons_self)]
      · rw [if_neg same, if_neg (List.not_mem_cons_of_ne_of_not_mem same later)]

theorem get?_erase_found (m : FinMap κ ν) (p : κ → ν → Bool) (k : κ) :
    ((m.retain p).keys.foldl erase m).get? k = (m.get? k).filter fun v => !p k v := by
  rw [get?_foldl_erase]
  cases found : m.get? k with
  | none => simp
  | some v =>
    rw [Option.filter_some]
    have member : k ∈ (m.retain p).keys ↔ p k v = true := by
      rw [mem_keys_iff]
      simp [get?_retain, found, Option.filter_some]
    by_cases passes : p k v = true
    · rw [if_pos (member.mpr passes), passes]
      rfl
    · rw [if_neg fun listed => passes (member.mp listed)]
      simp [passes]

theorem get?_foldl_insert {key : ν → κ} {vs : List ν} (nodup : (vs.map key).Nodup)
    (m : FinMap κ ν) (k : κ) (v : ν) :
    (vs.foldl (fun m v => m.insert (key v) v) m).get? k = some v ↔
      (v ∈ vs ∧ key v = k) ∨ (k ∉ vs.map key ∧ m.get? k = some v) := by
  induction vs generalizing m with
  | nil => simp
  | cons first rest ih =>
    rw [List.map_cons, List.nodup_cons] at nodup
    obtain ⟨fresh, others⟩ := nodup
    have later_key (later : v ∈ rest) : key v ∈ rest.map key := List.mem_map_of_mem later
    rw [List.foldl_cons, ih others, get?_insert, List.map_cons, List.mem_cons, List.mem_cons]
    by_cases here : k = key first
    · subst here
      rw [if_pos rfl, Option.some_inj]
      constructor
      · rintro (⟨later, same⟩ | ⟨-, rfl⟩)
        · exact absurd (same ▸ later_key later) fresh
        · exact .inl ⟨.inl rfl, rfl⟩
      · rintro (⟨rfl | later, same⟩ | ⟨absent, -⟩)
        · exact .inr ⟨fresh, rfl⟩
        · exact absurd (same ▸ later_key later) fresh
        · exact absurd (.inl rfl) absent
    · rw [if_neg here, not_or]
      constructor
      · rintro (⟨later, same⟩ | ⟨absent, old⟩)
        · exact .inl ⟨.inr later, same⟩
        · exact .inr ⟨⟨here, absent⟩, old⟩
      · rintro (⟨rfl | later, same⟩ | ⟨⟨-, absent⟩, old⟩)
        · exact absurd same.symm here
        · exact .inl ⟨later, same⟩
        · exact .inr ⟨absent, old⟩

theorem get?_foldl_sigma {es : List (Sigma fun _ : κ => ν)} (nodup : es.NodupKeys)
    (m : FinMap κ ν) (k : κ) :
    (es.foldl (fun m e => m.insert e.1 e.2) m).get? k = (List.dlookup k es).or (m.get? k) := by
  induction es generalizing m with
  | nil => rfl
  | cons e es ih =>
    obtain ⟨k', v⟩ := e
    obtain ⟨fresh, others⟩ := List.nodupKeys_cons.mp nodup
    rw [List.foldl_cons, ih others, dlookup_cons, get?_insert]
    by_cases same : k = k'
    · subst same
      rw [List.dlookup_eq_none.mpr fresh, if_pos rfl, if_pos rfl]
      rfl
    · rw [if_neg same, if_neg same]

theorem get?_foldl_entries (m : FinMap κ ν) (k : κ) :
    ((m.entries.map fun e => (e.1, e.2)).foldl (fun m p => m.insert p.1 p.2)
      (∅ : FinMap κ ν)).get? k = m.get? k := by
  rw [List.foldl_map, get?_foldl_sigma m.nodupKeys, get?_empty, Option.or_none]
  rfl

omit [DecidableEq κ] in
theorem keys_nodup (m : FinMap κ ν) : m.keys.Nodup := AList.keys_nodup m

section
variable {m m' : FinMap κ ν} {p : ν → Bool} {k : κ} {v : ν}

def tally (m : FinMap κ ν) (p : ν → Bool) : Nat := (m.entries.filter fun e => p e.2).length

omit [DecidableEq κ] in
@[simp] theorem tally_empty (p : ν → Bool) : (∅ : FinMap κ ν).tally p = 0 := rfl

theorem tally_le (sub : ∀ k v, m.get? k = some v → p v = true → m'.get? k = some v) :
    m.tally p ≤ m'.tally p := by
  have nodup : (m.entries.filter fun e => p e.2).Nodup := m.nodupKeys.nodup.filter _
  refine (List.subperm_of_subset nodup fun e member => ?_).length_le
  obtain ⟨listed, counts⟩ := List.mem_filter.mp member
  have found := sub e.1 e.2 (get?_eq_some_iff_mem.mpr listed) counts
  exact List.mem_filter.mpr ⟨get?_eq_some_iff_mem.mp found, counts⟩

theorem tally_congr (same : ∀ k v, p v = true → (m.get? k = some v ↔ m'.get? k = some v)) :
    m.tally p = m'.tally p :=
  Nat.le_antisymm (tally_le fun k v found counts => (same k v counts).mp found)
    (tally_le fun k v found counts => (same k v counts).mpr found)

theorem tally_insert (fresh : m.get? k = none) :
    (m.insert k v).tally p = m.tally p + if p v = true then 1 else 0 := by
  have absent : k ∉ m.entries.keys := by
    intro member
    have present : k ∈ m := member
    rw [← AList.lookup_isSome] at present
    change (m.get? k).isSome = true at present
    rw [fresh] at present
    cases present
  have entries : (m.insert k v).entries = ⟨k, v⟩ :: m.entries :=
    AList.entries_insert_of_notMem absent
  unfold tally
  rw [entries, List.filter_cons]
  split <;> simp [*]

theorem tally_erase (found : m.get? k = some v) :
    m.tally p = (m.erase k).tally p + if p v = true then 1 else 0 := by
  have fresh : (m.erase k).get? k = none := by rw [get?_erase, if_pos rfl]
  rw [← tally_insert fresh]
  refine tally_congr fun k' v' _ => ?_
  rw [get?_insert, get?_erase]
  by_cases same : k' = k
  · rw [if_pos same, same, found]
  · rw [if_neg same, if_neg same]

end

end FinMap
