import Mathlib

/-! Rust's `HashMap`, as the list of its live entries. The hash table, its
buckets and its iteration order are left out: no caller here depends on the order,
and the entries carry the uniqueness of their keys as a field. `insert` puts the
new entry in front of the others, `remove` filters out a key; both return the map
only, and a caller that reads the old value reads it with `get` first. -/
namespace Neptun.Lib

structure AssocMap (κ ν : Type) where
  entries : List (κ × ν)
  nodup : (entries.map (·.1)).Nodup

namespace AssocMap

variable {κ ν : Type} [DecidableEq κ]

def empty : AssocMap κ ν := ⟨[], List.nodup_nil⟩

def get (m : AssocMap κ ν) (k : κ) : Option ν := (m.entries.find? (·.1 = k)).map (·.2)

/-- The entries of other keys. -/
def others (m : AssocMap κ ν) (k : κ) : List (κ × ν) := m.entries.filter (·.1 ≠ k)

theorem nodup_others (m : AssocMap κ ν) (k : κ) : ((m.others k).map (·.1)).Nodup :=
  (List.filter_sublist.map _).nodup m.nodup

theorem not_mem_others (m : AssocMap κ ν) (k : κ) : k ∉ (m.others k).map (·.1) := by
  simp [others]

def remove (m : AssocMap κ ν) (k : κ) : AssocMap κ ν := ⟨m.others k, m.nodup_others k⟩

def insert (m : AssocMap κ ν) (k : κ) (v : ν) : AssocMap κ ν :=
  ⟨(k, v) :: m.others k, List.nodup_cons.mpr ⟨m.not_mem_others k, m.nodup_others k⟩⟩

def values (m : AssocMap κ ν) : List ν := m.entries.map (·.2)

@[simp] theorem get_empty (k : κ) : (empty : AssocMap κ ν).get k = none := rfl

theorem get_others (m : AssocMap κ ν) (k k' : κ) :
    ((m.others k).find? (·.1 = k')).map (·.2) = if k' = k then none else m.get k' := by
  unfold others get
  split
  · rename_i h
    subst h
    simp
  · rename_i h
    rw [List.find?_filter]
    congr 2
    funext e
    by_cases he : e.1 = k' <;> simp [he]; grind

@[simp] theorem get_insert (m : AssocMap κ ν) (k k' : κ) (v : ν) :
    (m.insert k v).get k' = if k' = k then some v else m.get k' := by
  unfold insert
  rw [get, List.find?_cons]
  by_cases h : k' = k
  · subst h
    simp
  · have hne : ¬ k = k' := fun h' => h h'.symm
    simp only [hne, decide_false, if_neg h]
    exact (get_others m k k').trans (if_neg h)

@[simp] theorem get_remove (m : AssocMap κ ν) (k k' : κ) :
    (m.remove k).get k' = if k' = k then none else m.get k' :=
  get_others m k k'

end AssocMap

end Neptun.Lib
