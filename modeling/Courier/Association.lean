/-!
# Association lists

A list of keys with values, in which a key has the value of its first entry.

## Main definitions

* `assign`: a list with the value of one key changed.

## Main results

* `lookup_assign`: the changed key has the new value, and all others keep theirs.
-/

namespace Courier

variable {α β : Type} [DecidableEq α]

/-- Replaces the value of a key, or adds it behind all others. -/
def assign (key : α) (value : β) : List (α × β) → List (α × β)
  | [] => [(key, value)]
  | e :: es => if e.1 = key then (key, value) :: es else e :: assign key value es

theorem lookup_assign (key other : α) (value : β) (es : List (α × β)) :
    (assign key value es).lookup other = if other = key then some value else es.lookup other := by
  induction es with
  | nil =>
    by_cases h : other = key
    · simp [assign, h]
    · have h' : (other == key) = false := by simp [h]
      simp [assign, List.lookup_cons, h, h']
  | cons e es ih =>
    obtain ⟨k, v⟩ := e
    by_cases hk : k = key
    · subst hk
      by_cases h : other = k
      · simp [assign, h]
      · have h' : (other == k) = false := by simp [h]
        simp [assign, List.lookup_cons, h, h']
    · by_cases h : other = k
      · subst h
        simp [assign, hk]
      · have h' : (other == k) = false := by simp [h]
        simp [assign, hk, List.lookup_cons, h', ih]

end Courier
