import AuditTrail.Config.ConnectionString
import AuditTrail.Proofs.Text.Positional
import AuditTrail.Proofs.Text.Split

/-! What is wrong with a connection string that is refused. Every string with a scheme divides into a text
and parameters, and of the text, what follows the last `@` and comes before the next slash is the host with
the port. Reading a part fails in the same cases whatever the configuration was before it, so the faults of
a string are those of its parts. -/
namespace AuditTrail

theorem SslMode.name_injective : Function.Injective SslMode.name := by
  intro m n same
  cases m <;> cases n <;> first | rfl | exact absurd same (by decide)

/-- A mode is read from its name in any letter case. -/
theorem SslMode.parse_eq_ok_iff {s : String} {m : SslMode} :
    SslMode.parse s = .ok m ↔ s.toLower = m.name := by
  rw [SslMode.parse]
  split
  · next n found =>
    have named : n.name = s.toLower := by simpa using List.find?_some found
    rw [Except.ok.injEq, ← named]
    exact ⟨congrArg SslMode.name, fun same => SslMode.name_injective same⟩
  · next none =>
    refine iff_of_false (by simp) fun named => ?_
    have all : m ∈ SslMode.all := by cases m <;> decide
    simpa [named] using List.find?_eq_none.mp none m all

namespace ConnectionString

/-! Errors -/

/-- Whether a computation ends in an error. -/
def Fails {ε α : Type} (x : Except ε α) : Prop :=
  ∃ e, x = .error e

section
variable {ε α β : Type} {x : Except ε α} {f : α → Except ε β}

theorem fails_error (e : ε) : Fails (.error e : Except ε α) :=
  ⟨e, rfl⟩

theorem fails_ok (a : α) : ¬ Fails (.ok a : Except ε α) := by
  rintro ⟨e, same⟩
  contradiction

/-- If what follows fails in the same cases whatever it is given, two steps fail if one of them does. -/
theorem fails_bind {P : Prop} (later : ∀ a, Fails (f a) ↔ P) : Fails (x >>= f) ↔ Fails x ∨ P := by
  cases x with
  | error e => exact iff_of_true (fails_error e) (.inl (fails_error e))
  | ok a => exact (later a).trans (or_iff_right (fails_ok a)).symm

theorem fails_mapError {ε' : Type} {g : ε → ε'} : Fails (x.mapError g) ↔ Fails x := by
  cases x with
  | error e => exact iff_of_true (fails_error (g e)) (fails_error e)
  | ok a => exact iff_of_false (fails_ok a) (fails_ok a)

end

/-! The division of any string -/

/-- A string that has one of the two schemes, and what follows the scheme. -/
def Follows (s rest : String) : Prop :=
  s = "postgres://" ++ rest ∨ s = "postgresql://" ++ rest

/-- The text before the first question mark. -/
def place (rest : List Char) : List Char :=
  rest.takeWhile (· ≠ '?')

/-- The texts of the parameters behind the first question mark. -/
def parameterTexts (rest : List Char) : List (List Char) :=
  match rest.dropWhile (· ≠ '?') with
  | [] => []
  | _ :: query => query.splitOn '&'

/-- What follows the last `@` of the text before the parameters, up to the next slash. -/
def hostAndPort (rest : List Char) : List Char :=
  ((place rest).rtakeWhile (· ≠ '@')).takeWhile (· ≠ '/')

/-- A host with a port that is no number of 16 bits. The port stands behind the first colon. -/
def BadPort (cs : List Char) : Prop :=
  ∃ host port, cs = host ++ ':' :: port ∧ ':' ∉ host ∧ ¬ ∃ n ≤ 65535, Positional.Spells port n

/-- A parameter for the mode of encryption that names none in any letter case. -/
def BadMode (cs : List Char) : Prop :=
  ∃ spelling : String, cs = ("sslmode=" ++ spelling).toList ∧ ∀ m : SslMode, spelling.toLower ≠ m.name

/-- What is wrong with a string that is refused. -/
inductive Faulty (s : String) : Prop where
  | scheme (other : ∀ rest, ¬ Follows s rest)
  | port {rest : String} (follows : Follows s rest) (bad : BadPort (hostAndPort rest.toList))
  | sslMode {rest : String} {parameter : List Char} (follows : Follows s rest)
      (mem : parameter ∈ parameterTexts rest.toList) (bad : BadMode parameter)

variable {s : String} {cs rest : List Char} {c : ServerConfig}

/-! Dividing a string -/

theorem afterScheme?_eq_some_iff : afterScheme? s.toList = some cs ↔ Follows s (String.ofList cs) := by
  have spelled (start : String) : Split.after? start.toList s.toList = some cs ↔
      s = start ++ String.ofList cs := by
    rw [Split.after?_eq_some_iff, ← String.toList_inj, String.toList_append, String.toList_ofList]
  rw [afterScheme?, Follows, ← spelled "postgres://", ← spelled "postgresql://"]
  cases first : Split.after? "postgres://".toList s.toList with
  | none => simp
  | some rest =>
    -- The schemes differ behind their first eight letters, so a string has one of them at most.
    have other : Split.after? "postgresql://".toList s.toList = none := by
      rw [Split.after?_eq_some_iff.mp first]
      rfl
    rw [other]
    simp

theorem readUser_snd : (readUser cs c).2 = cs.rtakeWhile (· ≠ '@') := by
  unfold readUser
  split
  · next userInfo rest cut =>
    obtain ⟨rfl, absent⟩ := Split.last?_eq_some_iff.mp cut
    rw [Split.rtakeWhile_append_cons absent]
    split <;> rfl
  · next cut =>
    exact (Split.rtakeWhile_of_not_mem (Split.last?_eq_none_iff.mp cut)).symm

theorem readDatabase_snd : (readDatabase cs c).2 = cs.takeWhile (· ≠ '/') := by
  unfold readDatabase
  split
  · next front cut =>
    obtain ⟨rfl, absent⟩ := Split.first?_eq_some_iff.mp cut
    exact (Split.takeWhile_append_cons absent).symm
  · next front name _ cut =>
    obtain ⟨rfl, absent⟩ := Split.first?_eq_some_iff.mp cut
    exact (Split.takeWhile_append_cons absent).symm
  · next cut =>
    exact (Split.takeWhile_of_not_mem (Split.first?_eq_none_iff.mp cut)).symm

/-- After the scheme, the parts are read one after the other. -/
theorem read_eq (after : afterScheme? s.toList = some rest) : read s =
    (let (c, part) := readUser (place rest) ServerConfig.default
     let (c, part) := readDatabase part c
     readHost part c >>= fun c => (parameterTexts rest).foldlM readParameter c) := by
  unfold read
  rw [after]
  cases cut : Split.first? '?' rest with
  | none =>
    have absent := Split.first?_eq_none_iff.mp cut
    have whole : place rest = rest := Split.takeWhile_of_not_mem absent
    have nothing : parameterTexts rest = [] := by
      rw [parameterTexts, Split.dropWhile_of_not_mem absent]
    rw [whole, nothing]
    simp only [cut]
  | some parts =>
    obtain ⟨front, query⟩ := parts
    obtain ⟨rfl, absent⟩ := Split.first?_eq_some_iff.mp cut
    have before : place (front ++ '?' :: query) = front := Split.takeWhile_append_cons absent
    have behind : parameterTexts (front ++ '?' :: query) = Split.pieces '&' query := by
      rw [parameterTexts, Split.dropWhile_append_cons absent, Split.pieces_eq_splitOn]
    rw [before, behind]
    simp only [cut]

/-! What goes wrong -/

theorem badPort_iff : BadPort cs ↔
    ∃ host port, Split.first? ':' cs = some (host, port) ∧ Positional.unsigned? Json.max16 port = none := by
  have none (port : List Char) : Positional.unsigned? Json.max16 port = none ↔
      ¬ ∃ n ≤ 65535, Positional.Spells port n := by
    rw [Option.eq_none_iff_forall_ne_some, not_exists]
    refine forall_congr' fun n => ?_
    rw [ne_eq, Positional.unsigned?_eq_some_iff, and_comm]
    rfl
  simp only [BadPort, Split.first?_eq_some_iff, none, and_assoc]

theorem fails_readHost : Fails (readHost cs c) ↔ BadPort cs := by
  rw [badPort_iff, readHost]
  cases Split.first? ':' cs with
  | none => exact iff_of_false (fails_ok _) (by simp)
  | some cut =>
    obtain ⟨host, port⟩ := cut
    simp only [Option.some.injEq, Prod.mk.injEq]
    cases number : Positional.unsigned? Json.max16 port with
    | none => exact iff_of_true (fails_error _) ⟨host, port, ⟨rfl, rfl⟩, number⟩
    | some n =>
      refine iff_of_false (fails_ok _) ?_
      rintro ⟨_, _, ⟨rfl, rfl⟩, none⟩
      rw [number] at none
      contradiction

theorem toList_sslMode (spelling : String) :
    ("sslmode=" ++ spelling).toList = "sslmode".toList ++ '=' :: spelling.toList := by
  rw [String.toList_append]
  rfl

/-- What follows the first equals sign of a parameter for the mode is the mode. -/
theorem first?_sslMode (spelling : String) : Split.first? '=' ("sslmode=" ++ spelling).toList
    = some ("sslmode".toList, spelling.toList) := by
  rw [toList_sslMode]
  exact Split.first?_append _ (by decide)

theorem fails_parse : Fails (SslMode.parse s) ↔ ∀ m : SslMode, s.toLower ≠ m.name := by
  cases read : SslMode.parse s with
  | error e =>
    refine iff_of_true (fails_error e) fun m named => ?_
    rw [SslMode.parse_eq_ok_iff.mpr named] at read
    contradiction
  | ok m => exact iff_of_false (fails_ok m) fun none => none m (SslMode.parse_eq_ok_iff.mp read)

theorem badMode_iff : BadMode cs ↔ ∃ value, Split.first? '=' cs = some ("sslmode".toList, value) ∧
    Fails (SslMode.parse (String.ofList value)) := by
  simp only [fails_parse]
  constructor
  · rintro ⟨spelling, rfl, unknown⟩
    exact ⟨spelling.toList, first?_sslMode spelling, by simpa using unknown⟩
  · rintro ⟨value, cut, unknown⟩
    obtain ⟨rfl, -⟩ := Split.first?_eq_some_iff.mp cut
    have spelled : (String.ofList value).toList = value := String.toList_ofList
    exact ⟨String.ofList value, by rw [toList_sslMode, spelled], unknown⟩

theorem fails_readParameter : Fails (readParameter c cs) ↔ BadMode cs := by
  rw [badMode_iff, readParameter]
  cases Split.first? '=' cs with
  | none => exact iff_of_false (fails_ok c) (by simp)
  | some cut =>
    obtain ⟨key, value⟩ := cut
    simp only [Option.some.injEq, Prod.mk.injEq]
    split
    · next named =>
      cases read : SslMode.parse (String.ofList value) with
      | ok m =>
        refine iff_of_false (fails_ok _) ?_
        rintro ⟨_, ⟨-, rfl⟩, fails⟩
        exact fails_ok m (read ▸ fails)
      | error e => exact iff_of_true (fails_error _) ⟨value, ⟨named, rfl⟩, read ▸ fails_error e⟩
    · next other =>
      refine iff_of_false (fails_ok c) ?_
      rintro ⟨_, ⟨named, -⟩, -⟩
      exact other named

theorem fails_readParameters {ps : List (List Char)} :
    Fails (ps.foldlM readParameter c) ↔ ∃ p ∈ ps, BadMode p := by
  induction ps generalizing c with
  | nil => exact iff_of_false (fails_ok c) (by simp)
  | cons p ps ih =>
    rw [List.foldlM_cons, fails_bind fun _ => ih, fails_readParameter, List.exists_mem_cons_iff]

theorem fails_read : Fails (read s) ↔ Faulty s := by
  cases after : afterScheme? s.toList with
  | none =>
    have other : ∀ rest, ¬ Follows s rest := by
      intro rest follows
      rw [← String.ofList_toList (s := rest), ← afterScheme?_eq_some_iff, after] at follows
      contradiction
    rw [read, after]
    exact iff_of_true (fails_error _) (.scheme other)
  | some rest =>
    have follows := afterScheme?_eq_some_iff.mp after
    rw [read_eq after]
    simp only [fails_bind fun _ => fails_readParameters, fails_readHost, readDatabase_snd, readUser_snd]
    constructor
    · rintro (bad | ⟨p, mem, bad⟩)
      · exact .port follows (by rwa [String.toList_ofList])
      · exact .sslMode follows (by rwa [String.toList_ofList]) bad
    · have only {other : String} (follows : Follows s other) : other.toList = rest := by
        rw [← String.ofList_toList (s := other), ← afterScheme?_eq_some_iff, after] at follows
        exact (Option.some.inj follows).symm
      rintro (other | @⟨_, follows', bad⟩ | @⟨_, p, follows', mem, bad⟩)
      · exact absurd follows (other _)
      · exact .inl (only follows' ▸ bad)
      · exact .inr ⟨p, only follows' ▸ mem, bad⟩

end ConnectionString

end AuditTrail
