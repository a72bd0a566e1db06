import RocketmqBroker.Lib.BigEndian

/-!
Reading fixed-width words and length-prefixed fields off the front of a byte
list. A read past the end fails and gives nothing back. Readers that never fail go on with
something in the place of what they do not find; such a reader and the tokens that it takes for
a value go together, and readers in turn take the tokens of their values one behind the other.
-/
namespace ByteReader
open BigEndian

def readSlice (len : Nat) (bs : List UInt8) : Option (List UInt8 × List UInt8) :=
  if len ≤ bs.length then some (bs.take len, bs.drop len) else none

def readWord (width : Nat) (bs : List UInt8) : Option (Nat × List UInt8) :=
  (readSlice width bs).map fun read => (fromBeBytes read.1, read.2)

def readPrefixed (width : Nat) (bs : List UInt8) : Option (List UInt8 × List UInt8) := do
  let (len, rest) ← readWord width bs
  readSlice len rest

def prefixed (width : Nat) (field : List UInt8) : List UInt8 :=
  toBeBytes width field.length ++ field

theorem readSlice_append {front : List UInt8} {len : Nat} (eq : front.length = len)
    (rest : List UInt8) : readSlice len (front ++ rest) = some (front, rest) := by
  subst eq
  simp [readSlice]

theorem readWord_toBeBytes {width n : Nat} (fits : n < 256 ^ width) (rest : List UInt8) :
    readWord width (toBeBytes width n ++ rest) = some (n, rest) := by
  rw [readWord, readSlice_append (toBeBytes_length width n), Option.map_some,
    fromBeBytes_toBeBytes fits]

theorem readPrefixed_prefixed {width : Nat} {field : List UInt8}
    (fits : field.length < 256 ^ width) (rest : List UInt8) :
    readPrefixed width (prefixed width field ++ rest) = some (field, rest) := by
  rw [prefixed, List.append_assoc, readPrefixed, readWord_toBeBytes fits]
  exact readSlice_append rfl rest

theorem readSlice_eq_some {len : Nat} {bs front rest : List UInt8}
    (h : readSlice len bs = some (front, rest)) :
    len ≤ bs.length ∧ front = bs.take len ∧ rest = bs.drop len := by
  unfold readSlice at h
  split at h
  · rename_i enough
    obtain ⟨rfl, rfl⟩ := Prod.mk.inj (Option.some.inj h)
    exact ⟨enough, rfl, rfl⟩
  · exact absurd h (by simp)

theorem readSlice_eq_some_iff {len : Nat} {bs front rest : List UInt8} :
    readSlice len bs = some (front, rest) ↔ front.length = len ∧ bs = front ++ rest := by
  constructor
  · intro h
    obtain ⟨enough, rfl, rfl⟩ := readSlice_eq_some h
    exact ⟨List.length_take_of_le enough, (List.take_append_drop len bs).symm⟩
  · rintro ⟨eq, rfl⟩
    exact readSlice_append eq rest

theorem readWord_eq_some {width n : Nat} {bs rest : List UInt8}
    (h : readWord width bs = some (n, rest)) :
    width ≤ bs.length ∧ n = fromBeBytes (bs.take width) ∧ rest = bs.drop width := by
  obtain ⟨⟨front, tail⟩, read, eq⟩ := Option.map_eq_some_iff.mp h
  obtain ⟨enough, rfl, rfl⟩ := readSlice_eq_some read
  obtain ⟨rfl, rfl⟩ := Prod.mk.inj eq
  exact ⟨enough, rfl, rfl⟩

theorem readWord_lt {width n : Nat} {bs rest : List UInt8}
    (read : readWord width bs = some (n, rest)) :
    n < 256 ^ width := by
  obtain ⟨enough, rfl, -⟩ := readWord_eq_some read
  have bound := fromBeBytes_lt (bs.take width)
  rw [List.length_take_of_le enough] at bound
  exact bound

theorem readPrefixed_eq_some {width : Nat} {bs field rest : List UInt8}
    (h : readPrefixed width bs = some (field, rest)) :
    width + fromBeBytes (bs.take width) ≤ bs.length ∧
      rest = bs.drop (width + fromBeBytes (bs.take width)) := by
  obtain ⟨⟨len, tail⟩, word, slice⟩ := Option.bind_eq_some_iff.mp h
  obtain ⟨enough, rfl, rfl⟩ := readWord_eq_some word
  obtain ⟨room, _, rfl⟩ := readSlice_eq_some slice
  rw [List.length_drop] at room
  exact ⟨by omega, by rw [List.drop_drop]⟩

end ByteReader

namespace Cursor
variable {τ α β : Type}

abbrev TokenReader (τ α : Type) := StateM (List τ) α

/-- The reader takes just these tokens off the front, whatever stands behind them. -/
def Reads (r : TokenReader τ α) (tokens : List τ) (a : α) : Prop :=
  ∀ rest, r.run (tokens ++ rest) = (a, rest)

/-- What a reader of optional values finds, or this. Where it fails nothing is left. -/
def orDefault (read : List τ → Option (α × List τ)) (a : α) : TokenReader τ α := fun tokens =>
  (read tokens).getD (a, [])

def value (r : TokenReader τ α) (tokens : List τ) : α := (r.run tokens).1

theorem Reads.value {r : TokenReader τ α} {tokens : List τ} {a : α} (reads : Reads r tokens a)
    (rest : List τ) : value r (tokens ++ rest) = a := congrArg Prod.fst (reads rest)

theorem reads_pure (a : α) : Reads (pure a : TokenReader τ α) [] a := fun _ => rfl

theorem reads_orDefault {read : List τ → Option (α × List τ)} {tokens : List τ} {a : α}
    (found : ∀ rest, read (tokens ++ rest) = some (a, rest)) (d : α) :
    Reads (orDefault read d) tokens a := by
  intro rest
  change (read (tokens ++ rest)).getD (d, []) = (a, rest)
  rw [found rest, Option.getD_some]

theorem Reads.bind {r : TokenReader τ α} {next : α → TokenReader τ β} {front back : List τ}
    {a : α} {b : β} (first : Reads r front a) (second : Reads (next a) back b) :
    Reads (r >>= next) (front ++ back) b := by
  intro rest
  change (next (r.run ((front ++ back) ++ rest)).1).run (r.run ((front ++ back) ++ rest)).2 = _
  rw [List.append_assoc, first (back ++ rest)]
  exact second rest

end Cursor
