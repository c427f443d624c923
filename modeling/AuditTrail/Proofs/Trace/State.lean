import AuditTrail.Proofs.Text.Split
import AuditTrail.Trace.State
import Mathlib.Data.List.Perm.Basic

/-! The grammar of the `tracestate` header. A piece between commas is a member if a key and a value are
left of it without the spaces and tabs at its ends. The keys seen so far are what a reader carries along:
from any such keys, a list is accepted exactly if it has room and brings new keys only. What a list brings
is one key for each member, so the order of its members does not matter. -/
namespace AuditTrail.TraceState

/-! The grammar -/

/-- A character of a key after its first. -/
def IsKeyPart (c : Char) : Prop :=
  c.isLower = true ∨ c.isDigit = true ∨ c ∈ ['_', '-', '*', '/']

/-- A key is a plain name, or the name of a tenant and that of a vendor. -/
inductive IsKey : List Char → Prop where
  | plain {c : Char} {more : List Char} (start : c.isLower = true) (parts : ∀ d ∈ more, IsKeyPart d)
      (few : more.length ≤ 255) : IsKey (c :: more)
  | tenant {c v : Char} {tenant vendor : List Char} (start : c.isLower = true ∨ c.isDigit = true)
      (parts : ∀ d ∈ tenant, IsKeyPart d) (few : tenant.length ≤ 240) (vendorStart : v.isLower = true)
      (vendorParts : ∀ d ∈ vendor, IsKeyPart d) (vendorFew : vendor.length ≤ 13) :
      IsKey (c :: tenant ++ '@' :: v :: vendor)

/-- A value is of printable ASCII characters and does not end with a space. -/
structure IsValue (value : List Char) : Prop where
  filled : 1 ≤ value.length
  few : value.length ≤ 256
  printable : ∀ c ∈ value, 0x20 ≤ c.toNat ∧ c.toNat ≤ 0x7e ∧ c ≠ ',' ∧ c ≠ '='
  last : value.getLast? ≠ some ' '

/-- A text that gives a key its value, with the first equals sign between them. -/
def Assigns (key cs : List Char) : Prop :=
  ∃ value, cs = key ++ '=' :: value ∧ '=' ∉ key ∧ IsKey key ∧ IsValue value

/-- A piece that gives a key its value, with padding around it. -/
def IsMember (key piece : List Char) : Prop :=
  ∃ core, Split.Trims isPadding piece core ∧ Assigns key core

/-- The pieces of a header between commas, less those without characters. -/
def members (s : String) : List (List Char) :=
  (s.toList.splitOn ',').filter (· ≠ [])

/-- Members whose keys differ, and not too many of them. -/
structure Sound (pieces : List (List Char)) : Prop where
  few : pieces.length ≤ 32
  keyed : ∃ keys : List (List Char), keys.Nodup ∧ List.Forall₂ IsMember keys pieces

variable {cs key value piece : List Char} {keys seen pieces : List (List Char)} {s t : String}

/-! Keys and values -/

theorem isLetter_iff {c : Char} : isLetter c = true ↔ c.isLower = true :=
  .rfl

theorem isTenantStart_iff {c : Char} :
    isTenantStart c = true ↔ c.isLower = true ∨ c.isDigit = true := by
  simp [isTenantStart, isLetter_iff, Char.isDigit, Char.le_def]

theorem isKeyChar_iff {c : Char} : isKeyChar c = true ↔ IsKeyPart c := by
  simp [isKeyChar, IsKeyPart, isTenantStart_iff, or_assoc]

theorem isName_iff {start : Char → Bool} {max : Nat} : isName start max cs = true ↔
    ∃ c more, cs = c :: more ∧ start c = true ∧ (∀ d ∈ more, IsKeyPart d) ∧ more.length ≤ max := by
  cases cs with
  | nil => simp [isName]
  | cons c more => simp [isName, isKeyChar_iff, and_assoc]

theorem IsKeyPart.ne {c d : Char} (part : IsKeyPart c) (other : isKeyChar d = false) : c ≠ d := by
  rintro rfl
  rw [isKeyChar_iff.mpr part] at other
  contradiction

theorem isKey_iff : isKey cs = true ↔ IsKey cs := by
  rw [isKey, Bool.or_eq_true, isName_iff]
  constructor
  · rintro (⟨c, more, rfl, start, parts, few⟩ | pair)
    · exact .plain (isLetter_iff.mp start) parts few
    · split at pair
      · next first second cut =>
        obtain ⟨rfl, -⟩ := Split.first?_eq_some_iff.mp cut
        rw [Bool.and_eq_true, isName_iff, isName_iff] at pair
        obtain ⟨⟨c, tenant, rfl, start, parts, few⟩, v, vendor, rfl, start', parts', few'⟩ := pair
        exact .tenant (isTenantStart_iff.mp start) parts few (isLetter_iff.mp start') parts' few'
      · contradiction
  · rintro (@⟨c, more, start, parts, few⟩ | @⟨c, v, tenant, vendor, start, parts, few, start', parts', few'⟩)
    · exact .inl ⟨c, more, rfl, isLetter_iff.mpr start, parts, few⟩
    · have first : IsKeyPart c := start.imp_right .inl
      have absent : '@' ∉ c :: tenant := by
        intro mem
        rcases List.mem_cons.mp mem with same | mem
        · exact first.ne (by decide) same.symm
        · exact (parts _ mem).ne (by decide) rfl
      right
      rw [Split.first?_append _ absent, Bool.and_eq_true, isName_iff, isName_iff]
      exact ⟨⟨c, tenant, rfl, isTenantStart_iff.mpr start, parts, few⟩,
        v, vendor, rfl, isLetter_iff.mpr start', parts', few'⟩

theorem isValueChar_iff {c : Char} :
    isValueChar c = true ↔ 0x20 ≤ c.toNat ∧ c.toNat ≤ 0x7e ∧ c ≠ ',' ∧ c ≠ '=' := by
  simp [isValueChar, Char.le_def, UInt32.le_iff_toNat_le, and_assoc]

theorem isValue_iff : isValue cs = true ↔ IsValue cs := by
  simp only [isValue, Bool.and_eq_true, List.all_eq_true, isValueChar_iff, decide_eq_true_eq]
  constructor
  · rintro ⟨⟨⟨printable, filled⟩, few⟩, last⟩
    exact ⟨filled, few, printable, last⟩
  · rintro ⟨filled, few, printable, last⟩
    exact ⟨⟨⟨printable, filled⟩, few⟩, last⟩

/-! Members -/

theorem isMember_iff : IsMember key piece ↔ Assigns key (Split.trimBoth isPadding piece) := by
  constructor
  · rintro ⟨core, trims, assigns⟩
    rwa [Split.trimBoth_eq_iff.mpr trims]
  · intro assigns
    exact ⟨_, Split.trims_trimBoth isPadding piece, assigns⟩

theorem memberKey?_eq_some_iff : memberKey? piece = some key ↔ IsMember key piece := by
  rw [isMember_iff]
  constructor
  · intro found
    unfold memberKey? at found
    split at found
    · next key' value cut =>
      split at found
      · next good =>
        cases found
        rw [Bool.and_eq_true, isKey_iff, isValue_iff] at good
        obtain ⟨whole, absent⟩ := Split.first?_eq_some_iff.mp cut
        exact ⟨value, whole, absent, good⟩
      · contradiction
    · contradiction
  · rintro ⟨value, whole, absent, good⟩
    rw [memberKey?, whole, Split.first?_append value absent]
    rw [← isKey_iff, ← isValue_iff, ← Bool.and_eq_true] at good
    exact if_pos good

/-- The first of several keys is new and the others are new after it. -/
theorem new_cons : (key :: keys).Nodup ∧ (∀ k ∈ key :: keys, k ∉ seen) ↔
    key ∉ seen ∧ keys.Nodup ∧ ∀ k ∈ keys, k ∉ key :: seen := by
  constructor
  · rintro ⟨distinct, new⟩
    obtain ⟨apart, distinct⟩ := List.nodup_cons.mp distinct
    obtain ⟨fresh, new⟩ := List.forall_mem_cons.mp new
    refine ⟨fresh, distinct, fun k mem old => ?_⟩
    rcases List.mem_cons.mp old with rfl | old
    · exact apart mem
    · exact new k mem old
  · rintro ⟨fresh, distinct, new⟩
    have apart : key ∉ keys := fun mem => new key mem List.mem_cons_self
    exact ⟨List.nodup_cons.mpr ⟨apart, distinct⟩, List.forall_mem_cons.mpr
      ⟨fresh, fun k mem old => new k mem (List.mem_cons_of_mem key old)⟩⟩

/-- From the keys that were seen on, a list is accepted if it fits into the room that is left and its
keys are new. -/
theorem areMembers_iff (room : seen.length ≤ 32) : areMembers seen pieces = true ↔
    ∃ keys : List (List Char), seen.length + keys.length ≤ 32 ∧
      (keys.Nodup ∧ ∀ key ∈ keys, key ∉ seen) ∧ List.Forall₂ IsMember keys (pieces.filter (· ≠ [])) := by
  induction pieces generalizing seen with
  | nil => exact iff_of_true rfl ⟨[], room, ⟨List.nodup_nil, by simp⟩, .nil⟩
  | cons piece rest ih =>
    rw [areMembers]
    by_cases empty : piece = []
    · simpa [empty] using ih room
    · have kept : (piece :: rest).filter (· ≠ []) = piece :: rest.filter (· ≠ []) := by simp [empty]
      rw [kept, if_neg (by simpa using empty)]
      split
      · next full =>
        -- One more key would be one too many, whatever follows this piece.
        have full : 32 ≤ seen.length := full
        refine iff_of_false Bool.false_ne_true ?_
        rintro ⟨_, few, -, (_ | ⟨-, -⟩)⟩
        rw [List.length_cons] at few
        omega
      · next free =>
        have free : seen.length < 32 := Nat.lt_of_not_le free
        cases named : memberKey? piece with
        | none =>
          refine iff_of_false Bool.false_ne_true ?_
          rintro ⟨_, -, -, (_ | ⟨first, -⟩)⟩
          rw [memberKey?_eq_some_iff.mpr first] at named
          contradiction
        | some key =>
          have fresh : (!seen.contains key) = true ↔ key ∉ seen := by simp
          have size : (key :: seen).length = seen.length + 1 := List.length_cons
          rw [Bool.and_eq_true, fresh, ih (size ▸ free), size]
          constructor
          · rintro ⟨fresh, keys, few, new, others⟩
            refine ⟨key :: keys, ?_, new_cons.mpr ⟨fresh, new⟩,
              .cons (memberKey?_eq_some_iff.mp named) others⟩
            rw [List.length_cons]
            omega
          · rintro ⟨_, few, new, (_ | ⟨first, others⟩)⟩
            cases Option.some.inj (named.symm.trans (memberKey?_eq_some_iff.mpr first))
            obtain ⟨fresh, new⟩ := new_cons.mp new
            refine ⟨fresh, _, ?_, new, others⟩
            rw [List.length_cons] at few
            omega

/-- A header is valid exactly if its members are. -/
theorem isValid_iff : isValid s = true ↔ Sound (members s) := by
  rw [isValid, Split.pieces_eq_splitOn, areMembers_iff (by simp)]
  constructor
  · rintro ⟨keys, few, ⟨distinct, -⟩, named⟩
    have length : keys.length = (members s).length := named.length_eq
    exact ⟨by simpa [← length] using few, keys, distinct, named⟩
  · rintro ⟨few, keys, distinct, named⟩
    have length : keys.length = (members s).length := named.length_eq
    exact ⟨keys, by simpa [length] using few, ⟨distinct, by simp⟩, named⟩

theorem Sound.exists_key (sound : Sound pieces) (mem : piece ∈ pieces) : ∃ key, IsMember key piece := by
  obtain ⟨-, keys, -, named⟩ := sound
  induction named with
  | nil => contradiction
  | cons first _ ih =>
    rcases List.mem_cons.mp mem with rfl | mem
    · exact ⟨_, first⟩
    · exact ih mem

theorem Sound.perm {others : List (List Char)} (sound : Sound pieces) (same : pieces.Perm others) :
    Sound others := by
  obtain ⟨few, keys, distinct, named⟩ := sound
  -- The keys move along with their pieces, and a rearrangement has no repetitions either.
  obtain ⟨moved, named, order⟩ := List.perm_comp_forall₂ same.symm named.flip
  exact ⟨same.length_eq ▸ few, moved, order.nodup_iff.mpr distinct, named.flip⟩

/-- The valid headers are lists of at most 32 members with different keys, whichever order the members
stand in. -/
theorem trace_state_is_its_members :
    (∀ s, isValid s = true ↔ (members s).length ≤ 32 ∧
      ∃ keys : List (List Char), keys.Nodup ∧ List.Forall₂ IsMember keys (members s)) ∧
    ∀ s t, (members s).Perm (members t) → isValid s = isValid t := by
  refine ⟨fun s => ?_, fun s t same => ?_⟩
  · rw [isValid_iff]
    exact ⟨fun sound => ⟨sound.few, sound.keyed⟩, fun ⟨few, keyed⟩ => ⟨few, keyed⟩⟩
  · rw [Bool.eq_iff_iff, isValid_iff, isValid_iff]
    exact ⟨fun sound => sound.perm same, fun sound => sound.perm same.symm⟩

/-- A member of a tenant with blanks around it and an empty piece, in both orders. -/
theorem trace_state_is_its_members_swapped :
    (members "\t9/1@v=x ,,b=2").Perm (members "b=2,\t9/1@v=x ") ∧ isValid "\t9/1@v=x ,,b=2" = true ∧
      isValid "b=2,\t9/1@v=x " = true := by
  have same : (members "\t9/1@v=x ,,b=2").Perm (members "b=2,\t9/1@v=x ") := by decide
  have first : isValid "\t9/1@v=x ,,b=2" = true := by decide
  exact ⟨same, first, trace_state_is_its_members.2 _ _ same ▸ first⟩

end AuditTrail.TraceState
