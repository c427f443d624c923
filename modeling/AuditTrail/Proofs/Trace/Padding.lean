import AuditTrail.Proofs.Trace.State
import Mathlib.Logic.Relation

/-! Spaces and tabs of a `tracestate` header beside its commas and at its ends. Putting them in or taking
them out changes no piece but for its ends, so what is left of the pieces after trimming stays the same.
Pieces are passed over before they are trimmed: padding is seen only where a piece consists of it. -/
namespace AuditTrail.TraceState

/-- A text, and the same text with padding put in at one of its ends or beside a comma. -/
inductive Pads : List Char → List Char → Prop where
  | insert (a w b : List Char) (padding : ∀ c ∈ w, isPadding c = true)
      (place : (a = [] ∨ a.getLast? = some ',') ∨ b = [] ∨ b.head? = some ',') :
      Pads (a ++ b) (a ++ w ++ b)

/-- Headers that come from each other by putting in and taking out padding. -/
def Respaced (s t : String) : Prop :=
  Relation.EqvGen Pads s.toList t.toList

/-- Whether some member consists of padding. -/
def HasBlank (s : String) : Prop :=
  ∃ piece ∈ members s, ∀ c ∈ piece, isPadding c = true

instance (s : String) : Decidable (HasBlank s) :=
  decidable_of_iff ((members s).any (·.all isPadding)) (by simp [HasBlank])

/-- What the pieces of a text are without the padding at their ends. -/
def trimmed (cs : List Char) : List (List Char) :=
  (cs.splitOn ',').map (Split.trimBoth isPadding)

variable {cs ds : List Char} {pieces others : List (List Char)} {s t : String}

theorem Pads.trimmed_eq (pads : Pads cs ds) : trimmed cs = trimmed ds := by
  obtain ⟨a, w, b, padding, place⟩ := pads
  obtain ⟨before, p, q, after, ends, starts, insert⟩ := Split.splitOn_insert ',' a b
  have absent : ',' ∉ w := fun mem => absurd (padding ',' mem) (by decide)
  have plain : (a ++ b).splitOn ',' = before ++ (p ++ q) :: after := by
    simpa using insert [] List.not_mem_nil
  have same : Split.trimBoth isPadding (p ++ w ++ q) = Split.trimBoth isPadding (p ++ q) := by
    rcases place with left | right
    · rw [ends left]
      exact Split.trimBoth_append_left padding
    · rw [starts right, List.append_nil, List.append_nil]
      exact Split.trimBoth_append_right padding
  rw [trimmed, trimmed, plain, insert w absent, List.map_append, List.map_append, List.map_cons,
    List.map_cons, same]

theorem trimmed_eq_of_eqvGen (respaced : Relation.EqvGen Pads cs ds) : trimmed cs = trimmed ds := by
  induction respaced with
  | rel _ _ pads => exact pads.trimmed_eq
  | refl => rfl
  | symm _ _ _ ih => exact ih.symm
  | trans _ _ _ _ _ first second => exact first.trans second

/-- Pieces are sound by what is left of them after trimming. -/
theorem Sound.congr (same : pieces.map (Split.trimBoth isPadding) = others.map (Split.trimBoth isPadding))
    (sound : Sound pieces) : Sound others := by
  obtain ⟨few, keys, distinct, named⟩ := sound
  have length : pieces.length = others.length := by simpa using congrArg List.length same
  have assigned : List.Forall₂ Assigns keys (others.map (Split.trimBoth isPadding)) := by
    rw [← same, List.forall₂_map_right_iff]
    exact named.imp fun key piece => isMember_iff.mp
  rw [List.forall₂_map_right_iff] at assigned
  exact ⟨length ▸ few, keys, distinct, assigned.imp fun key piece => isMember_iff.mpr⟩

/-- Trimming before pieces are passed over gives the same as trimming afterwards. -/
theorem map_trimBoth_members (filled : ¬ HasBlank s) :
    (members s).map (Split.trimBoth isPadding) = (trimmed s.toList).filter (· ≠ []) := by
  rw [members, trimmed, List.filter_map]
  refine congrArg _ (List.filter_congr fun piece mem => ?_)
  rw [Function.comp_apply, decide_eq_decide, not_iff_not, Split.trimBoth_eq_nil_iff]
  constructor
  · rintro rfl
    simp
  · intro padding
    by_contra some
    exact filled ⟨piece, List.mem_filter.mpr ⟨mem, by simpa using some⟩, padding⟩

theorem isValid_of_hasBlank (blank : HasBlank s) : isValid s = false := by
  obtain ⟨piece, mem, padding⟩ := blank
  rw [← Bool.not_eq_true, isValid_iff]
  intro sound
  obtain ⟨key, assigns⟩ := sound.exists_key mem
  obtain ⟨value, whole, -⟩ := isMember_iff.mp assigns
  rw [Split.trimBoth_eq_nil_iff.mpr padding] at whole
  simp at whole

/-- Padding changes nothing as long as no member consists of it. -/
theorem isValid_congr (respaced : Respaced s t) (filled : ¬ HasBlank s) (filled' : ¬ HasBlank t) :
    isValid s = isValid t := by
  have same : (members s).map (Split.trimBoth isPadding) = (members t).map (Split.trimBoth isPadding) := by
    rw [map_trimBoth_members filled, map_trimBoth_members filled', trimmed_eq_of_eqvGen respaced]
  rw [Bool.eq_iff_iff, isValid_iff, isValid_iff]
  exact ⟨.congr same, .congr same.symm⟩

/-- A header with a member of nothing but padding is invalid, also where an empty piece would be passed
over. So padding makes a difference exactly where one header has such a member and the other one is
valid. -/
theorem padding_matters_in_blank_members_only (s t : String) (respaced : Respaced s t) :
    (HasBlank s → isValid s = false) ∧
      (isValid s = isValid t ↔
        (HasBlank s → isValid t = false) ∧ (HasBlank t → isValid s = false)) := by
  refine ⟨isValid_of_hasBlank, ?_, ?_⟩
  · intro same
    exact ⟨fun blank => same ▸ isValid_of_hasBlank blank, fun blank => same ▸ isValid_of_hasBlank blank⟩
  · rintro ⟨left, right⟩
    by_cases blank : HasBlank s
    · rw [isValid_of_hasBlank blank, left blank]
    · by_cases blank' : HasBlank t
      · rw [isValid_of_hasBlank blank', right blank']
      · exact isValid_congr respaced blank blank'

/-- Two members with and without padding around them; a blank member between them makes the header
invalid. -/
theorem padding_matters_in_blank_members_only_two :
    Respaced "a=1,b=2" "a=1\t ,b=2" ∧ isValid "a=1\t ,b=2" = true ∧
      HasBlank "a=1,\t,b=2" ∧ isValid "a=1,\t,b=2" = false := by
  have respaced : Respaced "a=1,b=2" "a=1\t ,b=2" :=
    .rel _ _ (.insert "a=1".toList "\t ".toList ",b=2".toList (List.all_eq_true.mp rfl) (.inr (.inr rfl)))
  have filled : ¬ HasBlank "a=1,b=2" := by decide
  have filled' : ¬ HasBlank "a=1\t ,b=2" := by decide
  have blank : HasBlank "a=1,\t,b=2" := by decide
  have plain : isValid "a=1,b=2" = true := by decide
  have same := (padding_matters_in_blank_members_only _ _ respaced).2.mpr
    ⟨fun blank => absurd blank filled, fun blank => absurd blank filled'⟩
  exact ⟨respaced, same ▸ plain, blank, (padding_matters_in_blank_members_only _ _ (.refl _)).1 blank⟩

/-- A space that is put in between two commas makes a valid header invalid. -/
theorem padding_matters_in_blank_members :
    Respaced "a=1,,b=2" "a=1, ,b=2" ∧ isValid "a=1,,b=2" = true ∧ isValid "a=1, ,b=2" = false := by
  refine ⟨.rel _ _ (.insert "a=1,".toList " ".toList ",b=2".toList ?_ ?_), ?_, ?_⟩
  · exact List.all_eq_true.mp rfl
  · exact .inl (.inr rfl)
  · decide
  · decide

end AuditTrail.TraceState
