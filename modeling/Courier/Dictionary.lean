/-!
# Dictionaries

A dictionary maps names to values. Its entries are kept in the order of their names, compared
byte by byte, and no name occurs twice, so two dictionaries with the same values are equal.

## Main definitions

* `Dictionary`: a finite map from texts.
* `Dictionary.find?`, `Dictionary.insert`, `Dictionary.erase`, `Dictionary.ofList`.

## Main results

* `Dictionary.find?_insert`: an inserted value is found under its name, and only there.
* `Dictionary.find?_erase`: an erased name has no value, and the others keep theirs.
* `Dictionary.ofList_entries`: a dictionary is the dictionary of its entries.
-/

namespace Courier

/-- A finite map from texts, as entries with ascending names. -/
structure Dictionary (α : Type) where
  entries : List (String × α)
  ascending : entries.Pairwise fun a b => a.1 < b.1

namespace Dictionary

variable {α β : Type}

/-- The dictionary without entries. -/
def empty : Dictionary α :=
  ⟨[], .nil⟩

instance : EmptyCollection (Dictionary α) := ⟨empty⟩

instance : Inhabited (Dictionary α) := ⟨empty⟩

instance [DecidableEq α] : DecidableEq (Dictionary α) := fun a b =>
  decidable_of_iff (a.entries = b.entries) (by cases a; cases b; simp)

/-- The value of a name. -/
def find? (d : Dictionary α) (name : String) : Option α :=
  (d.entries.find? fun e => e.1 == name).map (·.2)

/-- Whether a name has a value. -/
def contains (d : Dictionary α) (name : String) : Bool :=
  (d.find? name).isSome

/-- The entries with `name` set to `value`, in order. -/
def insertEntry (name : String) (value : α) : List (String × α) → List (String × α)
  | [] => [(name, value)]
  | e :: es =>
    if name < e.1 then (name, value) :: e :: es
    else if name = e.1 then (name, value) :: es
    else e :: insertEntry name value es

theorem mem_insertEntry {name : String} {value : α} {es : List (String × α)} {e : String × α}
    (h : e ∈ insertEntry name value es) : e = (name, value) ∨ e ∈ es := by
  induction es with
  | nil => simpa [insertEntry] using h
  | cons x es ih =>
    unfold insertEntry at h
    split at h
    · simpa using h
    · split at h
      · rcases List.mem_cons.1 h with h | h
        · exact .inl h
        · exact .inr (List.mem_cons_of_mem _ h)
      · rcases List.mem_cons.1 h with h | h
        · exact .inr (h ▸ List.mem_cons_self)
        · exact (ih h).imp id (List.mem_cons_of_mem _)

theorem pairwise_insertEntry {name : String} {value : α} {es : List (String × α)}
    (h : es.Pairwise fun a b => a.1 < b.1) :
    (insertEntry name value es).Pairwise fun a b => a.1 < b.1 := by
  induction es with
  | nil => simp [insertEntry]
  | cons x es ih =>
    rw [List.pairwise_cons] at h
    unfold insertEntry
    split
    · next hlt =>
      refine List.pairwise_cons.2 ⟨fun e he => ?_, List.pairwise_cons.2 h⟩
      rcases List.mem_cons.1 he with rfl | he
      · exact hlt
      · exact String.lt_trans hlt (h.1 e he)
    · split
      · next heq => exact List.pairwise_cons.2 ⟨fun e he => heq ▸ h.1 e he, h.2⟩
      · next hlt hne =>
        refine List.pairwise_cons.2 ⟨fun e he => ?_, ih h.2⟩
        rcases mem_insertEntry he with rfl | he
        · refine Decidable.byContradiction fun hgt => hne ?_
          exact String.le_antisymm (String.not_lt.1 hgt) (String.not_lt.1 hlt)
        · exact h.1 e he

/-- The dictionary with `name` set to `value`. -/
def insert (d : Dictionary α) (name : String) (value : α) : Dictionary α :=
  ⟨insertEntry name value d.entries, pairwise_insertEntry d.ascending⟩

/-- The dictionary of a list of entries; a later entry replaces an earlier one of its name. -/
def ofList (es : List (String × α)) : Dictionary α :=
  es.foldl (fun d e => d.insert e.1 e.2) ∅

/-- The dictionary without `name`. -/
def erase (d : Dictionary α) (name : String) : Dictionary α :=
  ⟨d.entries.filter fun e => e.1 != name, d.ascending.filter _⟩

/-- The names, in order. -/
def names (d : Dictionary α) : List String :=
  d.entries.map (·.1)

/-- The number of entries. -/
def size (d : Dictionary α) : Nat :=
  d.entries.length

/-- Whether there are no entries. -/
def isEmpty (d : Dictionary α) : Bool :=
  d.entries.isEmpty

theorem find?_insertEntry (name other : String) (value : α) (es : List (String × α))
    (h : es.Pairwise fun a b => a.1 < b.1) :
    ((insertEntry name value es).find? fun e => e.1 == other).map (·.2) =
      if name = other then some value else (es.find? fun e => e.1 == other).map (·.2) := by
  induction es with
  | nil => by_cases hn : name = other <;> simp [insertEntry, hn]
  | cons x es ih =>
    rw [List.pairwise_cons] at h
    unfold insertEntry
    split
    · by_cases hn : name = other <;> simp [hn, List.find?_cons]
    · split
      · next heq =>
        by_cases hn : name = other
        · simp [hn]
        · have : (x.1 == other) = false := by simpa [← heq] using hn
          simp [hn, this]
      · next hne =>
        by_cases hx : x.1 = other
        · have : name ≠ other := fun h => hne (h.trans hx.symm)
          simp [hx, this]
        · have hx' : (x.1 == other) = false := by simpa using hx
          simp [hx', ih h.2]

/-- An inserted value is found under its name, and the other names keep their values. -/
theorem find?_insert (d : Dictionary α) (name other : String) (value : α) :
    (d.insert name value).find? other = if name = other then some value else d.find? other :=
  find?_insertEntry name other value d.entries d.ascending

@[simp] theorem find?_empty (name : String) : (∅ : Dictionary α).find? name = none :=
  rfl

/-- An erased name has no value, and the other names keep their values. -/
theorem find?_erase (d : Dictionary α) (name other : String) :
    (d.erase name).find? other = if name = other then none else d.find? other := by
  unfold find? erase
  rw [List.find?_filter]
  by_cases same : name = other
  · subst same
    rw [if_pos rfl, List.find?_eq_none.2 (by simp)]
    rfl
  · rw [if_neg same]
    congr 2
    funext e
    by_cases here : e.1 = other
    · simp [here, Ne.symm same]
    · simp [here]

/-- A name behind all others is inserted at the end. -/
theorem insertEntry_of_lt {name : String} (value : α) {es : List (String × α)}
    (last : ∀ e ∈ es, e.1 < name) : insertEntry name value es = es ++ [(name, value)] := by
  induction es with
  | nil => rfl
  | cons e es ih =>
    have before := last e List.mem_cons_self
    have behind : ¬ name < e.1 := fun after => String.lt_irrefl _ (String.lt_trans before after)
    have other : name ≠ e.1 := fun same => String.lt_irrefl _ (same ▸ before)
    rw [insertEntry, if_neg behind, if_neg other,
      ih fun f inside => last f (List.mem_cons_of_mem e inside)]
    rfl

/-- Ascending entries behind those of a dictionary are added as they stand. -/
theorem entries_foldl_insert {d : Dictionary α} {es : List (String × α)}
    (ascending : (d.entries ++ es).Pairwise fun a b => a.1 < b.1) :
    (es.foldl (fun d e => d.insert e.1 e.2) d).entries = d.entries ++ es := by
  induction es generalizing d with
  | nil => exact (List.append_nil _).symm
  | cons e es ih =>
    have last : ∀ f ∈ d.entries, f.1 < e.1 := fun f inside =>
      (List.pairwise_append.1 ascending).2.2 f inside e List.mem_cons_self
    have entries : (d.insert e.1 e.2).entries = d.entries ++ [e] := insertEntry_of_lt e.2 last
    rw [List.foldl_cons, ih, entries, List.append_assoc]
    · rfl
    · rwa [entries, List.append_assoc]

/-- A dictionary is the dictionary of its entries. -/
theorem ofList_entries (d : Dictionary α) : ofList d.entries = d := by
  have entries : (ofList d.entries).entries = d.entries := entries_foldl_insert d.ascending
  cases whole : ofList d.entries
  cases d
  rw [whole] at entries
  cases entries
  rfl

end Dictionary

end Courier
