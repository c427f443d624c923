import AuditTrail.Json.TextMap
import AuditTrail.Proofs.Json.Source

/-! A text map that is written as a document is read back, whatever characters its keys and values
have. -/
namespace AuditTrail

namespace TextMap

theorem place_last {k v : String} {l : List (String × String)} (last : ∀ e ∈ l, e.1 < k) :
    place k v l = l ++ [(k, v)] := by
  induction l with
  | nil => rfl
  | cons e l ih =>
    obtain ⟨first, rest⟩ := List.forall_mem_cons.mp last
    rw [place, if_neg (String.lt_asymm first), if_neg (String.ne_of_lt first).symm, ih rest,
      List.cons_append]

theorem entries_foldl_insert {l : List (String × String)} (m : TextMap)
    (ascending : (m.entries ++ l).Pairwise (·.1 < ·.1)) :
    (l.foldl (fun m e => m.insert e.1 e.2) m).entries = m.entries ++ l := by
  induction l generalizing m with
  | nil => rw [List.append_nil]; rfl
  | cons e l ih =>
    have last : ∀ x ∈ m.entries, x.1 < e.1 := fun x mem =>
      (List.pairwise_append.mp ascending).2.2 x mem e List.mem_cons_self
    have placed : (m.insert e.1 e.2).entries = m.entries ++ [e] := place_last last
    rw [List.append_cons, ← placed] at ascending
    rw [List.foldl_cons, ih _ ascending, placed, ← List.append_cons]

theorem ext_entries {m n : TextMap} (same : m.entries = n.entries) : m = n := by
  cases m
  cases n
  cases same
  rfl

/-- A map is the map of its entries. -/
@[simp] theorem ofList_entries (m : TextMap) : ofList m.entries = m :=
  ext_entries (entries_foldl_insert empty m.ascending)

end TextMap

namespace Json

theorem entry?_written (e : String × String) :
    entry? (written e.1, .string (written e.2)) = some e := by
  unfold entry?
  simp only [textOf?_written, Option.bind_eq_bind, Option.bind_some]

theorem source_textMap (m : TextMap) : (textMap.write m).source =
    .object (m.entries.map fun e => (written e.1, .string (written e.2))) := by
  simp only [textMap, source, memberSources_eq_map, List.map_map]
  rfl

theorem read?_textMapText (m : TextMap) : Source.read? (unitsOf (textMapText m)) =
    some (.object (m.entries.map fun e => (written e.1, .string (written e.2)))) := by
  rw [textMapText, read?_text, source_textMap]

theorem textMapOf?_textMapText (m : TextMap) : textMapOf? (textMapText m) = some m := by
  have entries : (m.entries.map fun e => (written e.1, Source.string (written e.2))).mapM entry?
      = some m.entries := mapM_map_eq_some fun e _ => entry?_written e
  rw [textMapOf?, Codec.ofText?, read?_textMapText, Option.bind_some]
  simp only [textMap, entries, Option.map_some, TextMap.ofList_entries]

end Json

end AuditTrail
