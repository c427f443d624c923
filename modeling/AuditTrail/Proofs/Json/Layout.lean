import AuditTrail.Json.Codec
import AuditTrail.Proofs.Json.Source

/-! Documents that lack some of their members. The reader of a structure starts from the defaults and
takes over one member after the other. A member that is missing keeps its default, since no field
touches what another one writes. -/
namespace AuditTrail.Json

/-- Members at any depth of a document, each by the names that lead to it. -/
abbrev Paths := List String → Bool

def Paths.none : Paths := fun _ => false

/-- The chosen members inside a member. -/
def Paths.inside (removed : Paths) (name : String) : Paths := fun path => removed (name :: path)

mutual

/-- A document without some of its members. -/
def without (removed : Paths) : Json → Json
  | object members => object (withoutMembers removed members)
  | null => null
  | boolean b => boolean b
  | number n => number n
  | string s => string s
  | array items => array items

def withoutMembers (removed : Paths) : List (String × Json) → List (String × Json)
  | [] => []
  | (name, j) :: rest =>
    if removed [name] then withoutMembers removed rest
    else (name, without (removed.inside name) j) :: withoutMembers removed rest

end

def member (name : String) : Json → Json
  | object members => ((members.find? (·.1 = name)).map (·.2)).getD null
  | _ => null

mutual

/-- A document in which some members, with everything inside them, are as in the document of the
defaults. -/
def patched (removed : Paths) : Json → Json → Json
  | object members, defaults => object (patchedMembers removed members defaults)
  | null, _ => null
  | boolean b, _ => boolean b
  | number n, _ => number n
  | string s, _ => string s
  | array items, _ => array items

def patchedMembers (removed : Paths) : List (String × Json) → Json → List (String × Json)
  | [], _ => []
  | (name, j) :: rest, defaults =>
    (name, if removed [name] then defaults.member name
      else patched (removed.inside name) j (defaults.member name)) ::
        patchedMembers removed rest defaults

end

/-- The one member that has no default. -/
def sizeName : String := "maxSizeBytes"

/-- Somewhere in a document the limit on a size is kept while the size is removed. -/
inductive LosesSize : Paths → Json → Prop where
  | here {removed : Paths} {members : List (String × Json)} {j : Json}
    (size : (sizeName, j) ∈ members) (lost : removed [sizeName] = true) :
    LosesSize removed (.object members)
  | inside {removed : Paths} {members : List (String × Json)} {name : String} {j : Json}
    (member : (name, j) ∈ members) (kept : removed [name] = false)
    (loses : LosesSize (removed.inside name) j) : LosesSize removed (.object members)

theorem withoutMembers_eq (removed : Paths) (members : List (String × Json)) :
    withoutMembers removed members = (members.filter fun m => !removed [m.1]).map fun m =>
      (m.1, without (removed.inside m.1) m.2) := by
  induction members with
  | nil => rfl
  | cons m rest ih =>
    rw [withoutMembers, ih, List.filter_cons]
    cases removed [m.1] <;> rfl

theorem patchedMembers_eq (removed : Paths) (members : List (String × Json)) (defaults : Json) :
    patchedMembers removed members defaults = members.map fun m => (m.1,
      if removed [m.1] then defaults.member m.1
      else m.2.patched (removed.inside m.1) (defaults.member m.1)) := by
  induction members with
  | nil => rfl
  | cons m rest ih => rw [patchedMembers, ih, List.map_cons]

@[simp] theorem Paths.none_apply (path : List String) : Paths.none path = false := rfl

@[simp] theorem Paths.none_inside (name : String) : Paths.none.inside name = .none := rfl

mutual

theorem without_none (j : Json) : j.without .none = j := by
  match j with
  | object members => rw [without, withoutMembers_none]
  | null | boolean _ | number _ | string _ | array _ => rfl

theorem withoutMembers_none (members : List (String × Json)) :
    withoutMembers .none members = members := by
  match members with
  | [] => rfl
  | (name, j) :: rest =>
    rw [withoutMembers, Paths.none_apply, if_neg Bool.false_ne_true, Paths.none_inside,
      without_none j, withoutMembers_none rest]

end

mutual

theorem patched_none (j defaults : Json) : j.patched .none defaults = j := by
  match j with
  | object members => rw [patched, patchedMembers_none]
  | null | boolean _ | number _ | string _ | array _ => rfl

theorem patchedMembers_none (members : List (String × Json)) (defaults : Json) :
    patchedMembers .none members defaults = members := by
  match members with
  | [] => rfl
  | (name, j) :: rest =>
    rw [patchedMembers, Paths.none_apply, if_neg Bool.false_ne_true, Paths.none_inside,
      patched_none j, patchedMembers_none rest]

end

theorem exists_of_losesSize {removed : Paths} {j : Json} (loses : LosesSize removed j) :
    ∃ path, removed (path ++ [sizeName]) = true := by
  induction loses with
  | here _ lost => exact ⟨[], lost⟩
  | inside _ _ _ ih =>
    obtain ⟨path, lost⟩ := ih
    exact ⟨_ :: path, lost⟩

theorem not_losesSize_none (j : Json) : ¬ LosesSize .none j := by
  intro loses
  obtain ⟨path, lost⟩ := exists_of_losesSize loses
  contradiction

theorem not_losesSize_of_leaf {removed : Paths} {j : Json} (leaf : ∀ members, j ≠ .object members) :
    ¬ LosesSize removed j := by
  intro loses
  cases loses with
  | here => exact leaf _ rfl
  | inside => exact leaf _ rfl

/-! Codecs -/

/-- A reader that fills the gaps of a document: what is removed from the document of a value comes
back from the document of the defaults. It refuses only limits that lose their size. -/
structure Codec.Fills {α : Type} (codec : Codec α) (d a : α) : Prop where
  refused : ∀ removed, LosesSize removed (codec.write a) →
    codec.read? ((codec.write a).without removed).source = none
  filled : ∀ removed, ¬ LosesSize removed (codec.write a) →
    ∃ b, codec.read? ((codec.write a).without removed).source = some b ∧
      codec.write b = (codec.write a).patched removed (codec.write d)

namespace Codec

variable {α : Type} {codec : Codec α} {d a : α}

theorem ofText?_text (codec : Codec α) (j : Json) : codec.ofText? j.text = codec.read? j.source := by
  rw [ofText?, read?_text, Option.bind_some]

/-- A value is read back from its document, of which nothing is missing. -/
theorem Fills.ofText?_write (fills : codec.Fills d a) (inj : Function.Injective codec.write) :
    codec.ofText? (codec.write a).text = some a := by
  obtain ⟨b, read, same⟩ := fills.filled .none (not_losesSize_none _)
  rw [without_none] at read
  rw [patched_none] at same
  rw [ofText?_text, read, inj same]

/-- The one value that is read from a partial document is the one whose document is the patched one. -/
theorem Fills.exists_ofText? (fills : codec.Fills d a) (inj : Function.Injective codec.write)
    {removed : Paths} (sized : ¬ LosesSize removed (codec.write a)) :
    ∃ b, codec.ofText? ((codec.write a).without removed).text = some b ∧
      ∀ c, codec.write c = (codec.write a).patched removed (codec.write d) ↔ c = b := by
  obtain ⟨b, read, written⟩ := fills.filled removed sized
  refine ⟨b, (codec.ofText?_text _).trans read, fun c => ?_⟩
  rw [← written, inj.eq_iff]

/-- A value without members is read as it is written. -/
theorem fills_of_leaf (leaf : ∀ members, codec.write a ≠ .object members)
    (back : codec.read? (codec.write a).source = some a) : codec.Fills d a := by
  have whole (removed : Paths) : (codec.write a).without removed = codec.write a := by
    cases same : codec.write a with
    | object members => exact absurd same (leaf members)
    | _ => rfl
  have kept (removed : Paths) (defaults : Json) :
      (codec.write a).patched removed defaults = codec.write a := by
    cases same : codec.write a with
    | object members => exact absurd same (leaf members)
    | _ => rfl
  constructor
  · intro removed loses
    exact absurd loses (not_losesSize_of_leaf leaf)
  · intro removed _
    exact ⟨a, by rw [whole, back], (kept removed _).symm⟩

theorem read?_unsigned {max n : Nat} (range : n ≤ max) :
    (unsigned max).read? (Json.number n).source = some n := by
  have digits : writeNumber (n : Int) = Positional.decimal n := if_neg (by omega)
  simp [unsigned, source, digits, Positional.natural?_decimal, range]

theorem fills_unsigned {max n : Nat} (range : n ≤ max) (d : Nat) : (unsigned max).Fills d n :=
  fills_of_leaf (fun _ same => by cases same) (read?_unsigned range)

theorem fills_truth (d b : Bool) : truth.Fills d b :=
  fills_of_leaf (fun _ same => by cases same) rfl

theorem fills_textual (d s : String) : textual.Fills d s :=
  fills_of_leaf (fun _ same => by cases same) (textOf?_written s)

theorem fills_optional_textual (d s : Option String) : textual.optional.Fills d s := by
  cases s with
  | none => exact fills_of_leaf (fun _ same => by cases same) rfl
  | some s =>
    refine fills_of_leaf (fun _ same => by cases same) ?_
    exact congrArg (Option.map some) (textOf?_written s)

theorem fills_named {α : Type} {name : α → String} {all : List α}
    {a : α} (found : all.find? (name · = name a) = some a) (d : α) :
    (Json.named name all).Fills d a := by
  refine fills_of_leaf (fun _ same => by cases same) ?_
  simp only [Json.named, source, textOf?_written, Option.bind_some, found]

end Codec

/-! Fields -/

namespace Field

variable {σ α : Type}

/-- Reading the one field leaves what the other one writes. -/
def Keeps (f g : Field σ) : Prop :=
  ∀ source s t, f.read? source s = some t → g.write t = g.write s

def Apart (f g : Field σ) : Prop := f.Keeps g ∧ g.Keeps f

structure Fills (f : Field σ) (d a : σ) : Prop where
  refused : ∀ removed s, LosesSize removed (f.write a) →
    f.read? ((f.write a).without removed).source s = none
  filled : ∀ removed s, ¬ LosesSize removed (f.write a) →
    ∃ t, f.read? ((f.write a).without removed).source s = some t ∧
      f.write t = (f.write a).patched removed (f.write d)

/-- What a partial document has of a field. -/
def left (f : Field σ) (removed : Paths) (a : σ) : Option Source :=
  if removed [f.name] then none else some ((f.write a).without (removed.inside f.name)).source

def patched (f : Field σ) (removed : Paths) (d a : σ) : Json :=
  if removed [f.name] then f.write d
  else (f.write a).patched (removed.inside f.name) (f.write d)

def LosesSize (f : Field σ) (removed : Paths) (a : σ) : Prop :=
  removed [f.name] = false ∧ (f.write a).LosesSize (removed.inside f.name)

theorem keeps_of {β : Type} {name other : String} {c : Codec α} {c' : Codec β} {get : σ → α}
    {set : α → σ → σ} {get' : σ → β} {set' : β → σ → σ} (same : ∀ x s, get' (set x s) = get' s) :
    (Field.of name c get set).Keeps (.of other c' get' set') := by
  intro source s t read
  obtain ⟨x, -, rfl⟩ := Option.map_eq_some_iff.mp read
  exact congrArg c'.write (same x s)

theorem fills_of {name : String} {c : Codec α} {get : σ → α} {set : α → σ → σ} {d a : σ}
    (fills : c.Fills (get d) (get a)) (back : ∀ x s, get (set x s) = x) :
    (Field.of name c get set).Fills d a := by
  constructor
  · intro removed s loses
    exact congrArg (Option.map (set · s)) (fills.refused removed loses)
  · intro removed s sized
    obtain ⟨b, read, written⟩ := fills.filled removed sized
    refine ⟨set b s, congrArg (Option.map (set · s)) read, ?_⟩
    exact (congrArg c.write (back b s)).trans written

variable {f g : Field σ} {d a s t : σ} {removed : Paths}

theorem exists_apply (fills : f.Fills d a) (optional : f.required = false)
    (sized : ¬ f.LosesSize removed a) (start : f.write s = f.write d) :
    ∃ t, f.apply (f.left removed a) s = some t ∧ f.write t = f.patched removed d a ∧
      ∀ g, f.Keeps g → g.write t = g.write s := by
  cases lost : removed [f.name] with
  | true =>
    refine ⟨s, ?_, ?_, fun _ _ => rfl⟩
    · simp [left, lost, apply, optional]
    · rw [patched, if_pos lost, start]
  | false =>
    obtain ⟨t, read, written⟩ :=
      fills.filled (removed.inside f.name) s fun loses => sized ⟨lost, loses⟩
    refine ⟨t, ?_, ?_, fun g keeps => keeps _ _ _ read⟩
    · simp [left, lost, apply, read]
    · simp [patched, lost, written]

theorem apply_eq_none (fills : f.Fills d a) (loses : f.LosesSize removed a) :
    f.apply (f.left removed a) s = none := by
  obtain ⟨kept, loses⟩ := loses
  simp [left, kept, apply, fills.refused _ _ loses]

end Field

/-! Structures -/

section
variable {σ : Type} {fields : List (Field σ)} {d a s : σ} {removed : Paths}

theorem exists_readFields (fills : ∀ f ∈ fields, f.Fills d a)
    (optional : ∀ f ∈ fields, f.required = false) (apart : fields.Pairwise Field.Apart)
    (sized : ∀ f ∈ fields, ¬ f.LosesSize removed a) (start : ∀ f ∈ fields, f.write s = f.write d) :
    ∃ t, readFields (fields.map fun f => (f, f.left removed a)) s = some t ∧
      (∀ f ∈ fields, f.write t = f.patched removed d a) ∧
      ∀ g, (∀ f ∈ fields, f.Keeps g) → g.write t = g.write s := by
  induction fields generalizing s with
  | nil => exact ⟨s, rfl, by simp, fun _ _ => rfl⟩
  | cons f fields ih =>
    simp only [List.forall_mem_cons, List.pairwise_cons] at fills optional apart sized start
    obtain ⟨u, applied, written, kept⟩ :=
      Field.exists_apply fills.1 optional.1 sized.1 start.1
    have next : ∀ g ∈ fields, g.write u = g.write d := fun g mem =>
      (kept g (apart.1 g mem).1).trans (start.2 g mem)
    obtain ⟨t, read, others, same⟩ := ih fills.2 optional.2 apart.2 sized.2 next
    refine ⟨t, ?_, ?_, ?_⟩
    · rw [List.map_cons, readFields, applied, Option.bind_some, read]
    · refine List.forall_mem_cons.mpr ⟨?_, others⟩
      rw [same f fun g mem => (apart.1 g mem).2, written]
    · intro g keeps
      obtain ⟨first, rest⟩ := List.forall_mem_cons.mp keeps
      rw [same g rest, kept g first]

theorem readFields_eq_none (fills : ∀ f ∈ fields, f.Fills d a)
    (loses : ∃ f ∈ fields, f.LosesSize removed a) :
    readFields (fields.map fun f => (f, f.left removed a)) s = none := by
  induction fields generalizing s with
  | nil => obtain ⟨_, mem, -⟩ := loses; cases mem
  | cons f fields ih =>
    obtain ⟨first, rest⟩ := List.forall_mem_cons.mp fills
    rw [List.map_cons, readFields]
    obtain ⟨g, mem, loses⟩ := loses
    rcases List.mem_cons.mp mem with rfl | mem
    · rw [Field.apply_eq_none first loses, Option.bind_none]
    · exact Option.bind_eq_none_iff.mpr fun t _ => ih rest ⟨g, mem, loses⟩

theorem filter_name (names : (fields.map (·.name)).Nodup) {f : Field σ} (mem : f ∈ fields) :
    fields.filter (·.name = f.name) = [f] := by
  induction fields with
  | nil => cases mem
  | cons g fields ih =>
    obtain ⟨new, names⟩ := List.nodup_cons.mp names
    have other : ∀ h ∈ fields, h.name ≠ g.name := fun h mem same =>
      new (List.mem_map.mpr ⟨h, mem, same⟩)
    rcases List.mem_cons.mp mem with rfl | mem
    · rw [List.filter_cons_of_pos (by simp), List.filter_eq_nil_iff.mpr (by simpa using other)]
    · rw [List.filter_cons_of_neg (by simpa using (other f mem).symm), ih names mem]

end

/-- Members are found by the names under which they were written. -/
theorem read?_object {σ : Type} (layout : Layout σ) (members : List (String × Json)) :
    layout.codec.read? (Json.object members).source =
      ((layout.fields.map (·.name)).mapM (memberOf? (members.map fun m => (m.1, m.2.source)))).bind
        fun found => readFields (layout.fields.zip found) layout.start := by
  have keys (names : List String) :
      (Source.object (members.map fun m => (written m.1, m.2.source))).members? names
        = names.mapM (memberOf? (members.map fun m => (m.1, m.2.source))) := by
    have named : ∀ m ∈ members, (textOf? (written m.1)).map (fun k => (k, m.2.source))
        = some (m.1, m.2.source) := fun m _ => by rw [textOf?_written, Option.map_some]
    rw [Source.members?, List.mapM_map]
    exact congrArg (·.bind fun found => names.mapM (memberOf? found)) (mapM_eq_some_map named)
  simp only [Layout.codec, source, memberSources_eq_map, keys]

theorem memberOf?_eq_some {members : List (String × Source)} {name : String} {found : Option Source}
    (own : members.filter (·.1 = name) = found.toList.map fun s => (name, s)) :
    memberOf? members name = some found := by
  rw [memberOf?, own]
  cases found <;> rfl

namespace Layout

variable {σ : Type} {layout : Layout σ} {a b : σ} {removed : Paths}

/-- Fields with different names that write separate parts of a structure and together all of it. None
of them has to be there. -/
structure Regular (layout : Layout σ) : Prop where
  names : (layout.fields.map (·.name)).Nodup
  defaulted : ∀ f ∈ layout.fields, f.required = false ∧ f.name ≠ sizeName
  apart : layout.fields.Pairwise Field.Apart
  determined : ∀ a b, (∀ f ∈ layout.fields, f.write a = f.write b) → a = b

theorem write_eq (layout : Layout σ) (a : σ) :
    layout.codec.write a = .object (layout.fields.map fun f => (f.name, f.write a)) := rfl

theorem write_injective (regular : layout.Regular) : Function.Injective layout.codec.write := by
  intro a b same
  rw [write_eq, write_eq, Json.object.injEq, List.map_inj_left] at same
  exact regular.determined a b fun f mem => congrArg Prod.snd (same f mem)

theorem losesSize_iff (regular : layout.Regular) : LosesSize removed (layout.codec.write a) ↔
    ∃ f ∈ layout.fields, f.LosesSize removed a := by
  constructor
  · intro loses
    rw [write_eq] at loses
    cases loses with
    | here size =>
      obtain ⟨f, mem, same⟩ := List.mem_map.mp size
      exact absurd (congrArg Prod.fst same) (regular.defaulted f mem).2
    | inside member kept loses =>
      obtain ⟨f, mem, same⟩ := List.mem_map.mp member
      cases same
      exact ⟨f, mem, kept, loses⟩
  · rintro ⟨f, mem, kept, loses⟩
    exact .inside (List.mem_map_of_mem mem) kept loses

theorem not_losesSize (regular : layout.Regular)
    (each : ∀ f ∈ layout.fields, ∀ removed a, ¬ (f.write a).LosesSize removed) (removed : Paths)
    (a : σ) : ¬ LosesSize removed (layout.codec.write a) := by
  rw [losesSize_iff regular]
  rintro ⟨f, mem, -, loses⟩
  exact each f mem _ a loses

theorem memberOf?_left (regular : layout.Regular) {f : Field σ} (mem : f ∈ layout.fields) :
    memberOf? ((withoutMembers removed (layout.fields.map fun f => (f.name, f.write a))).map
      fun m => (m.1, m.2.source)) f.name = some (f.left removed a) := by
  refine memberOf?_eq_some ?_
  simp only [withoutMembers_eq, List.filter_map, List.map_map, Function.comp_def]
  rw [List.filter_comm, filter_name regular.names mem, Field.left]
  cases lost : removed [f.name] <;> simp [lost]

theorem member_write (regular : layout.Regular) {f : Field σ} (mem : f ∈ layout.fields) :
    (layout.codec.write a).member f.name = f.write a := by
  simp only [write_eq, member, List.find?_map, Function.comp_def]
  rw [← List.head?_filter, filter_name regular.names mem]
  rfl

theorem patched_write (regular : layout.Regular) :
    (layout.codec.write a).patched removed (layout.codec.write b) =
      .object (layout.fields.map fun f => (f.name, f.patched removed b a)) := by
  rw [write_eq layout a, patched, patchedMembers_eq, List.map_map]
  refine congrArg Json.object (List.map_congr_left fun f mem => ?_)
  simp only [Function.comp_apply, member_write regular mem]
  rfl

theorem read?_without (regular : layout.Regular) :
    layout.codec.read? ((layout.codec.write a).without removed).source =
      readFields (layout.fields.map fun f => (f, f.left removed a)) layout.start := by
  have found : (layout.fields.map (·.name)).mapM (memberOf? ((withoutMembers removed
      (layout.fields.map fun f => (f.name, f.write a))).map fun m => (m.1, m.2.source)))
        = some (layout.fields.map fun f => f.left removed a) := by
    rw [List.mapM_map]
    exact mapM_eq_some_map fun f mem => memberOf?_left regular mem
  rw [write_eq, without, read?_object, found, Option.bind_some]
  exact congrArg (readFields · layout.start) List.map_prod_left_eq_zip.symm

theorem fills (regular : layout.Regular) (each : ∀ f ∈ layout.fields, f.Fills layout.start a) :
    layout.codec.Fills layout.start a := by
  constructor
  · intro removed loses
    rw [read?_without regular]
    exact readFields_eq_none each ((losesSize_iff regular).mp loses)
  · intro removed sized
    have kept : ∀ f ∈ layout.fields, ¬ f.LosesSize removed a := fun f mem loses =>
      sized ((losesSize_iff regular).mpr ⟨f, mem, loses⟩)
    obtain ⟨t, read, written, -⟩ := exists_readFields each
      (fun f mem => (regular.defaulted f mem).1) regular.apart kept fun _ _ => rfl
    refine ⟨t, (read?_without regular).trans read, ?_⟩
    rw [patched_write regular, write_eq]
    exact congrArg Json.object (List.map_congr_left fun f mem => by rw [written f mem])

end Layout

end AuditTrail.Json
