/-!
Maps from texts to texts, kept in ascending order of their keys. The order is that of code points,
which is also the order of the bytes.
-/
namespace AuditTrail

/-- A map as its entries in ascending order of keys. -/
structure TextMap where
  entries : List (String × String)
  ascending : entries.Pairwise (·.1 < ·.1)
deriving DecidableEq

namespace TextMap

/-- The map without entries. -/
def empty : TextMap := ⟨[], List.Pairwise.nil⟩

instance : Inhabited TextMap := ⟨empty⟩

/-- Puts an entry in its place; an entry with the same key is replaced. -/
def place (k v : String) : List (String × String) → List (String × String)
  | [] => [(k, v)]
  | e :: r =>
    if k < e.1 then (k, v) :: e :: r
    else if k = e.1 then (k, v) :: r
    else e :: place k v r

theorem mem_place {k v : String} {l : List (String × String)} {x : String × String}
    (h : x ∈ place k v l) : x = (k, v) ∨ x ∈ l := by
  induction l with
  | nil => simpa [place] using h
  | cons e r ih =>
    simp only [place] at h
    split at h
    · simpa using h
    · split at h
      · rcases List.mem_cons.1 h with h | h
        · exact .inl h
        · exact .inr (List.mem_cons_of_mem _ h)
      · rcases List.mem_cons.1 h with h | h
        · exact .inr (h ▸ List.mem_cons_self)
        · exact (ih h).imp id (List.mem_cons_of_mem _)

theorem lt_of_not_lt_of_ne {a b : String} (h : ¬a < b) (ne : a ≠ b) : b < a := by
  rw [String.not_lt] at h
  exact Std.lt_of_le_of_ne h (Ne.symm ne)

theorem place_ascending (k v : String) {l : List (String × String)}
    (h : l.Pairwise (·.1 < ·.1)) : (place k v l).Pairwise (·.1 < ·.1) := by
  induction l with
  | nil => simp [place]
  | cons e r ih =>
    have ⟨front, rest⟩ := List.pairwise_cons.1 h
    simp only [place]
    split
    · next lt =>
      refine List.pairwise_cons.2 ⟨?_, h⟩
      intro x mem
      rcases List.mem_cons.1 mem with rfl | mem
      · exact lt
      · exact Std.lt_trans lt (front x mem)
    · split
      · next eq =>
        exact List.pairwise_cons.2 ⟨fun x mem => by simpa [eq] using front x mem, rest⟩
      · next nlt ne =>
        refine List.pairwise_cons.2 ⟨?_, ih rest⟩
        intro x mem
        rcases mem_place mem with rfl | mem
        · exact lt_of_not_lt_of_ne nlt ne
        · exact front x mem

def insert (m : TextMap) (k v : String) : TextMap :=
  ⟨place k v m.entries, place_ascending k v m.ascending⟩

/-- The map of a list of entries; of two with one key the later counts. -/
def ofList (l : List (String × String)) : TextMap :=
  l.foldl (fun m e => m.insert e.1 e.2) empty

def get? (m : TextMap) (k : String) : Option String :=
  m.entries.lookup k

def contains (m : TextMap) (k v : String) : Bool :=
  m.get? k = some v

end TextMap

end AuditTrail
