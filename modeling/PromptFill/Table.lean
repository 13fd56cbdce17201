/-
  Tables: finite maps that remember the order in which their keys came.

  A table is the list of its keys with their entries.  Setting a key that is there keeps
  its place, setting a new one appends it, and a key that was taken out and set again goes
  to the end.

  `get?_set` and `keys_set` describe `set` by what can be looked up and by the order of
  the keys.
-/
namespace PromptFill

/-- A finite map as the list of its keys with their entries, in order. -/
abbrev Table (κ α : Type) := List (κ × α)

namespace Table

variable {κ α : Type} [DecidableEq κ]

/-- The entry of a key. -/
def get? : Table κ α → κ → Option α
  | [], _ => none
  | (j, a) :: t, k => if j = k then some a else get? t k

/-- The keys in order. -/
def keys (t : Table κ α) : List κ := t.map Prod.fst

/-- The table with the entry of `k` set to `a`: in place if `k` is there, else at the end. -/
def set : Table κ α → κ → α → Table κ α
  | [], k, a => [(k, a)]
  | (j, b) :: t, k, a => if j = k then (j, a) :: t else (j, b) :: set t k a

/-- The table without the key `k`. -/
def unset (t : Table κ α) (k : κ) : Table κ α := t.filter fun p => p.1 ≠ k

/-- The table with the entries of `u` set one after the other. -/
def update (t u : Table κ α) : Table κ α := u.foldl (fun t p => set t p.1 p.2) t

/-- The table of a list of pairs: a repeated key keeps its first place and its last entry. -/
def ofList (u : List (κ × α)) : Table κ α := update [] u

theorem get?_eq_none_iff {t : Table κ α} {k : κ} : t.get? k = none ↔ k ∉ t.keys := by
  induction t with
  | nil => simp [get?, keys]
  | cons p t ih =>
    by_cases h : p.1 = k
    · simp [get?, keys, h]
    · simpa [get?, keys, h, Ne.symm h] using ih

theorem get?_set {t : Table κ α} {j k : κ} {a : α} :
    (t.set k a).get? j = if j = k then some a else t.get? j := by
  induction t with
  | nil => simp [set, get?, eq_comm]
  | cons p t ih =>
    by_cases h : p.1 = k <;> by_cases hj : p.1 = j <;> grind [set, get?]

theorem keys_set {t : Table κ α} {k : κ} {a : α} :
    (t.set k a).keys = if k ∈ t.keys then t.keys else t.keys ++ [k] := by
  induction t with
  | nil => simp [set, keys]
  | cons p t ih =>
    by_cases h : p.1 = k
    · simp [set, keys, h]
    · simp only [set, if_neg h, keys, List.map_cons, List.mem_cons] at ih ⊢
      rw [ih]
      by_cases hk : k ∈ List.map Prod.fst t <;> simp [hk, Ne.symm h]

end Table

end PromptFill
