-- SUMMARY: The files of a terminal, by name.
import KeyInjection.Bytes

/-!
# File stores

A file store maps names to contents. It is kept as a list of entries whose order says nothing:
what a store is can be seen through `get?`, and the lemmas say what each operation does to that
view.
-/

namespace KeyInjection

structure FileStore where
  entries : List (String × Bytes)
  deriving DecidableEq, Repr

namespace FileStore

def empty : FileStore := ⟨[]⟩

def get? (s : FileStore) (name : String) : Option Bytes := s.entries.lookup name

def contains (s : FileStore) (name : String) : Bool := (s.get? name).isSome

def erase (s : FileStore) (name : String) : FileStore := ⟨s.entries.filter (·.1 != name)⟩

/-- Gives a file a content; the file is created if need be. -/
def put (s : FileStore) (name : String) (content : Bytes) : FileStore :=
  ⟨(name, content) :: (s.erase name).entries⟩

/-- The store that holds the given files; of two with one name the later. -/
def ofList (files : List (String × Bytes)) : FileStore :=
  files.foldl (fun s f => s.put f.1 f.2) empty

def names (s : FileStore) : List String := s.entries.map (·.1)

@[simp] theorem get?_empty (name : String) : empty.get? name = none := rfl

@[simp] theorem get?_erase (s : FileStore) (name other : String) :
    (s.erase name).get? other = if other = name then none else s.get? other := by
  simp only [get?, erase]
  induction s.entries with
  | nil => simp
  | cons e rest ih =>
    rcases e with ⟨key, content⟩
    by_cases hk : key = name
    · subst hk
      rw [List.filter_cons_of_neg (by simp), ih, List.lookup_cons]
      by_cases ho : other = key <;> simp [ho, beq_false_of_ne]
    · rw [List.filter_cons_of_pos (by simp [hk]), List.lookup_cons, List.lookup_cons, ih]
      by_cases ho : other = key <;> simp_all [beq_false_of_ne]

@[simp] theorem get?_put (s : FileStore) (name other : String) (content : Bytes) :
    (s.put name content).get? other = if other = name then some content else s.get? other := by
  by_cases h : other = name
  · simp [put, get?, h]
  · have := get?_erase s name other
    simp_all [put, get?, List.lookup_cons, beq_false_of_ne]

@[simp] theorem contains_put (s : FileStore) (name other : String) (content : Bytes) :
    (s.put name content).contains other = (other == name || s.contains other) := by
  by_cases h : other = name <;> simp [contains, h]

end FileStore

end KeyInjection
