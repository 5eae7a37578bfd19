/-! # Tables

Association lists in which every key occurs once, in the order of insertion.
-/
namespace LineLint
namespace Data

/-- A table from texts to values. -/
abbrev Table (α : Type) : Type :=
  List (String × α)

namespace Table

variable {α : Type}

/-- The value of a key. -/
def get? : Table α → String → Option α
  | [], _ => none
  | (k, v) :: entries, key => if k = key then some v else get? entries key

/-- Gives a key a value: in its old place if the table has the key, and at the end if not. -/
def put (table : Table α) (key : String) (value : α) : Table α :=
  match table with
  | [] => [(key, value)]
  | (k, v) :: entries =>
    if k = key then (key, value) :: entries else (k, v) :: put entries key value

/-- Removes a key. -/
def erase (table : Table α) (key : String) : Table α :=
  table.filter fun entry => entry.1 != key

theorem get?_put (table : Table α) (key other : String) (value : α) :
    (table.put key value).get? other = if key = other then some value else table.get? other := by
  induction table with
  | nil => simp [put, get?]
  | cons entry entries ih =>
    obtain ⟨k, v⟩ := entry
    by_cases hk : k = key
    · subst hk
      by_cases ho : k = other <;> simp [put, get?, ho]
    · by_cases ho : k = other
      · subst ho
        simp [put, get?, hk, Ne.symm hk]
      · simp [put, get?, hk, ho, ih]

end Table
end Data
end LineLint
