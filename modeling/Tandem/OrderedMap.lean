/-!
# Maps kept in key order

The fields of a task, the selections of a round and the stamps seen per participant are small finite
maps that are shown in key order.  `OrderedMap` is a list of pairs whose keys strictly increase, and the
order is part of the type: two maps that answer every look-up alike are equal (`OrderedMap.ext_get?`), so
comparing entry lists is the same as comparing contents.

The view of a map is `get?`; `get?_empty` and `get?_insert` say what the operations do to it.
-/

namespace Tandem

/-- A finite map from `κ` to `ν`, listed by strictly increasing key. -/
structure OrderedMap (κ ν : Type) [LT κ] where
  /-- The pairs of the map, in key order. -/
  entries : List (κ × ν)
  /-- Every key is below the keys that follow it. -/
  sorted : entries.Pairwise (fun a b => a.1 < b.1)

namespace OrderedMap

variable {κ ν μ : Type} [LT κ] [LE κ] [DecidableLT κ] [DecidableEq κ]

/-- The map without entries. -/
def empty : OrderedMap κ ν := ⟨[], List.Pairwise.nil⟩

/-- The value held under a key. -/
def get? (m : OrderedMap κ ν) (k : κ) : Option ν :=
  (m.entries.find? (fun e => e.1 = k)).map Prod.snd

/-- Whether a key is held. -/
def contains (m : OrderedMap κ ν) (k : κ) : Bool := (m.get? k).isSome

/-- Puts a pair into a list of pairs: in front of the first larger key, or in place of an equal one. -/
def insertEntry (k : κ) (v : ν) : List (κ × ν) → List (κ × ν)
  | [] => [(k, v)]
  | e :: rest =>
    if k < e.1 then (k, v) :: e :: rest
    else if e.1 < k then e :: insertEntry k v rest
    else (k, v) :: rest

omit [LE κ] [DecidableEq κ] in
theorem mem_insertEntry {k : κ} {v : ν} {l : List (κ × ν)} {e : κ × ν}
    (h : e ∈ insertEntry k v l) : e.1 = k ∨ e ∈ l := by
  induction l with
  | nil => simp_all [insertEntry]
  | cons a rest ih => grind [insertEntry]

omit [DecidableEq κ] in
theorem insertEntry_sorted [Std.IsLinearOrder κ] [Std.LawfulOrderLT κ] (k : κ) (v : ν)
    {l : List (κ × ν)} (h : l.Pairwise (fun a b => a.1 < b.1)) :
    (insertEntry k v l).Pairwise (fun a b => a.1 < b.1) := by
  induction l with
  | nil => simp [insertEntry]
  | cons e rest ih =>
    obtain ⟨below, tail⟩ := List.pairwise_cons.mp h
    unfold insertEntry
    split
    · rename_i lt
      refine List.pairwise_cons.mpr ⟨fun e' mem => ?_, h⟩
      rcases List.mem_cons.mp mem with rfl | mem
      · exact lt
      · exact Std.lt_trans lt (below e' mem)
    · split
      · rename_i lt
        refine List.pairwise_cons.mpr ⟨fun e' mem => ?_, ih tail⟩
        rcases mem_insertEntry mem with eq | mem
        · exact eq ▸ lt
        · exact below e' mem
      · rename_i notBefore notAfter
        have eq : k = e.1 :=
          Std.le_antisymm (Std.not_lt.mp notAfter) (Std.not_lt.mp notBefore)
        exact List.pairwise_cons.mpr ⟨fun e' mem => eq ▸ below e' mem, tail⟩

/-- Holds `v` under `k` from now on; the other keys keep their values. -/
def insert [Std.IsLinearOrder κ] [Std.LawfulOrderLT κ] (m : OrderedMap κ ν) (k : κ) (v : ν) :
    OrderedMap κ ν :=
  ⟨insertEntry k v m.entries, insertEntry_sorted k v m.sorted⟩

/-- The map of a list of pairs; of two pairs with one key the later counts. -/
def ofList [Std.IsLinearOrder κ] [Std.LawfulOrderLT κ] (l : List (κ × ν)) : OrderedMap κ ν :=
  l.foldl (fun m e => m.insert e.1 e.2) empty

omit [LE κ] [DecidableLT κ] [DecidableEq κ] in
private theorem map_sorted (f : ν → μ) {l : List (κ × ν)} (h : l.Pairwise (fun a b => a.1 < b.1)) :
    (l.map (fun e => (e.1, f e.2))).Pairwise (fun a b => a.1 < b.1) :=
  List.pairwise_map.mpr h

/-- Rewrites every value, keeping the keys. -/
def map (f : ν → μ) (m : OrderedMap κ ν) : OrderedMap κ μ :=
  ⟨m.entries.map (fun e => (e.1, f e.2)), map_sorted f m.sorted⟩

/-- The number of keys. -/
def size (m : OrderedMap κ ν) : Nat := m.entries.length

/-- The values, in key order. -/
def values (m : OrderedMap κ ν) : List ν := m.entries.map Prod.snd

/-! ## Look-ups -/

omit [LE κ] [DecidableLT κ] in
@[simp] theorem get?_empty (k : κ) : (empty : OrderedMap κ ν).get? k = none := rfl

private theorem find?_insertEntry [Std.IsLinearOrder κ] [Std.LawfulOrderLT κ] (k k' : κ) (v : ν)
    (l : List (κ × ν)) :
    ((insertEntry k v l).find? (fun e => e.1 = k')).map Prod.snd
      = if k = k' then some v else (l.find? (fun e => e.1 = k')).map Prod.snd := by
  have lt_ne : ∀ {a b : κ}, a < b → a ≠ b := fun lt eq => Std.lt_irrefl (eq ▸ lt)
  have eq_of : ∀ {a b : κ}, ¬ a < b → ¬ b < a → a = b := fun h₁ h₂ =>
    Std.le_antisymm (Std.not_lt.mp h₂) (Std.not_lt.mp h₁)
  induction l with
  | nil => by_cases h : k = k' <;> simp [insertEntry, h]
  | cons e rest ih => grind [insertEntry]

/-- After an insertion the key answers with the new value and all other keys as before. -/
theorem get?_insert [Std.IsLinearOrder κ] [Std.LawfulOrderLT κ] (m : OrderedMap κ ν) (k k' : κ) (v : ν) :
    (m.insert k v).get? k' = if k = k' then some v else m.get? k' :=
  find?_insertEntry k k' v m.entries

omit [LE κ] [DecidableLT κ] in
/-- Rewriting the values rewrites the answers. -/
theorem get?_map (f : ν → μ) (m : OrderedMap κ ν) (k : κ) : (m.map f).get? k = (m.get? k).map f := by
  obtain ⟨l, sorted⟩ := m
  simp only [get?, map]
  clear sorted
  induction l with
  | nil => rfl
  | cons e rest ih => by_cases h : e.1 = k <;> simp_all

omit [LE κ] [DecidableLT κ] in
/-- A key is held exactly with the value of its entry. -/
theorem get?_eq_some_iff [LE κ] [Std.IsLinearOrder κ] [Std.LawfulOrderLT κ] (m : OrderedMap κ ν) (k : κ)
    (v : ν) : m.get? k = some v ↔ (k, v) ∈ m.entries := by
  obtain ⟨l, sorted⟩ := m
  simp only [get?]
  induction l with
  | nil => simp
  | cons e rest ih =>
    obtain ⟨a, b⟩ := e
    obtain ⟨below, tail⟩ := List.pairwise_cons.mp sorted
    by_cases h : a = k
    · subst h
      have outside : (a, v) ∉ rest := fun mem => Std.lt_irrefl (below (a, v) mem)
      simp [outside, eq_comm]
    · have ne : k ≠ a := fun eq => h eq.symm
      simpa [h, ne] using ih tail

omit [LE κ] [DecidableLT κ] in
/-- Two maps that answer every look-up alike are the same map. -/
theorem ext_get? [LE κ] [Std.IsLinearOrder κ] [Std.LawfulOrderLT κ] {m n : OrderedMap κ ν}
    (h : ∀ k, m.get? k = n.get? k) : m = n := by
  have same : ∀ e, e ∈ m.entries ↔ e ∈ n.entries := fun e => by
    rw [← get?_eq_some_iff m e.1 e.2, ← get?_eq_some_iff n e.1 e.2, h]
  obtain ⟨l, sortedL⟩ := m
  obtain ⟨r, sortedR⟩ := n
  simp only [mk.injEq]
  clear h
  induction l generalizing r with
  | nil => cases r with
    | nil => rfl
    | cons e _ => exact absurd ((same e).mpr List.mem_cons_self) List.not_mem_nil
  | cons a l ih => cases r with
    | nil => exact absurd ((same a).mp List.mem_cons_self) List.not_mem_nil
    | cons b r =>
      obtain ⟨belowA, tailA⟩ := List.pairwise_cons.mp sortedL
      obtain ⟨belowB, tailB⟩ := List.pairwise_cons.mp sortedR
      have heads : a = b := by
        rcases List.mem_cons.mp ((same a).mp List.mem_cons_self) with eq | memA
        · exact eq
        · rcases List.mem_cons.mp ((same b).mpr List.mem_cons_self) with eq | memB
          · exact eq.symm
          · exact absurd (Std.lt_trans (belowB a memA) (belowA b memB)) Std.lt_irrefl
      subst heads
      have rest : ∀ e, e ∈ l ↔ e ∈ r := fun e => by
        have outL : e ∈ l → e ≠ a := fun mem eq => Std.lt_irrefl (a := a.1) (eq ▸ belowA e mem)
        have outR : e ∈ r → e ≠ a := fun mem eq => Std.lt_irrefl (a := a.1) (eq ▸ belowB e mem)
        have := same e
        simp only [List.mem_cons] at this
        grind
      rw [ih tailA r tailB rest]

end OrderedMap

end Tandem
