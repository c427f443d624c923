import AuditTrail.Proofs.Config.ConnectionString

/-! Connection strings that are put together from parts. Each cut of the reader falls where the string was
put together, because the part on one side of it has no such separator: the question mark is the first one,
the `@` is the last one before it, and so on inwards. -/
namespace AuditTrail.ConnectionString

/-! Parts -/

/-- A parameter: a mode of encryption in some letter case, or any other text. -/
inductive Parameter where
  | mode (mode : SslMode) (spelling : String)
  | other (text : String)

namespace Parameter

def text : Parameter → String
  | mode _ spelling => "sslmode=" ++ spelling
  | other text => text

def mode? : Parameter → Option SslMode
  | mode m _ => some m
  | other _ => none

def Proper : Parameter → Prop
  | mode m spelling => spelling.toLower = m.name
  | other text => '&' ∉ text.toList ∧ ¬ "sslmode=".toList <+: text.toList

end Parameter

/-- Who connects. -/
structure Credentials where
  user : String
  password : Option String

/-- What a connection string is put together from. -/
structure Parts where
  scheme : String
  credentials : Option Credentials
  host : String
  port : Option Nat
  database : Option String
  parameters : List Parameter

namespace Parts

def credentialsText (p : Parts) : String :=
  match p.credentials with
  | some ⟨user, some password⟩ => user ++ ":" ++ password ++ "@"
  | some ⟨user, none⟩ => user ++ "@"
  | none => ""

def portText (p : Parts) : String :=
  match p.port with
  | some n => ":" ++ toString n
  | none => ""

def databaseText (p : Parts) : String :=
  match p.database with
  | some name => "/" ++ name
  | none => ""

def parametersText (p : Parts) : String :=
  match p.parameters with
  | [] => ""
  | ps => "?" ++ "&".intercalate (ps.map Parameter.text)

def text (p : Parts) : String :=
  p.scheme ++ "://" ++ p.credentialsText ++ p.host ++ p.portText ++ p.databaseText ++ p.parametersText

/-- The configuration that has these parts, and the default for each part that is missing. Of several
modes of encryption the last one counts. -/
def config (p : Parts) : ServerConfig :=
  { ServerConfig.default with
    host := p.host
    port := p.port.getD ServerConfig.default.port
    database := p.database.getD ServerConfig.default.database
    user := (p.credentials.map Credentials.user).getD ServerConfig.default.user
    password := p.credentials.bind Credentials.password
    sslMode := (p.parameters.filterMap Parameter.mode?).getLast?.getD ServerConfig.default.sslMode }

/-- Parts without the separators that would end them early. -/
structure Proper (p : Parts) : Prop where
  scheme : p.scheme = "postgres" ∨ p.scheme = "postgresql"
  user : ∀ c ∈ p.credentials, ':' ∉ c.user.toList ∧ '?' ∉ c.user.toList
  password : ∀ c ∈ p.credentials, ∀ w ∈ c.password, '?' ∉ w.toList
  host : p.host ≠ "" ∧ ∀ c ∈ p.host.toList, c ≠ ':' ∧ c ≠ '/' ∧ c ≠ '?' ∧ c ≠ '@'
  port : ∀ n ∈ p.port, n ≤ 65535
  database : ∀ d ∈ p.database, d ≠ "" ∧ '?' ∉ d.toList ∧ '@' ∉ d.toList
  parameters : ∀ x ∈ p.parameters, x.Proper

end Parts

variable {c : ServerConfig} {p : Parts} {front : List Char}

/-! Reading the parts -/

theorem toList_toLower (s : String) : s.toLower.toList = s.toList.map Char.toLower :=
  String.toList_map

theorem Parameter.Proper.plain {x : Parameter} (proper : x.Proper) : '&' ∉ x.text.toList := by
  cases x with
  | mode m spelling =>
    have named : spelling.toLower = m.name := proper
    have absent : '&' ∉ m.name.toList := by cases m <;> decide
    have kept : '&' ∉ spelling.toList := fun mem => absent (by
      rw [← named, toList_toLower]
      exact List.mem_map.mpr ⟨'&', mem, rfl⟩)
    rw [Parameter.text, toList_sslMode]
    simp [kept]
  | other text => exact proper.1

theorem readParameter_text {x : Parameter} (proper : x.Proper) :
    readParameter c x.text.toList = .ok { c with sslMode := x.mode?.getD c.sslMode } := by
  cases x with
  | mode m spelling =>
    have read : SslMode.parse spelling = .ok m := SslMode.parse_eq_ok_iff.mpr proper
    rw [readParameter, Parameter.text, first?_sslMode]
    simp [read, Parameter.mode?]
  | other text =>
    rw [readParameter, Parameter.text]
    cases cut : Split.first? '=' text.toList with
    | none => rfl
    | some parts =>
      obtain ⟨key, value⟩ := parts
      -- With this key, the text would start like a mode of encryption.
      have unnamed : key ≠ "sslmode".toList := by
        rintro rfl
        have whole := (Split.first?_eq_some_iff.mp cut).1
        exact proper.2 ⟨value, by rw [whole]; rfl⟩
      exact if_neg unnamed

theorem readParameters_text {ps : List Parameter} (proper : ∀ x ∈ ps, x.Proper) :
    (ps.map fun x => x.text.toList).foldlM readParameter c
      = .ok { c with sslMode := (ps.filterMap Parameter.mode?).getLast?.getD c.sslMode } := by
  induction ps generalizing c with
  | nil => rfl
  | cons x ps ih =>
    obtain ⟨first, others⟩ := List.forall_mem_cons.mp proper
    rw [List.map_cons, List.foldlM_cons, readParameter_text first]
    refine (ih others).trans ?_
    cases named : x.mode? with
    | none => simp [named]
    | some m => simp [named, List.getLast?_cons]

theorem toList_portText (n : Nat) :
    (":" ++ toString n).toList = ':' :: Positional.decimal n := by
  have digits : (toString n).toList = Positional.decimal n := by
    rw [Nat.toString_eq_repr, Nat.repr_eq_ofList_toDigits, String.toList_ofList]
    rfl
  rw [String.toList_append, digits]
  rfl

theorem not_mem_portText {d : Char} (sign : d ≠ ':') (other : d.isDigit = false) :
    d ∉ p.portText.toList := by
  unfold Parts.portText
  split
  · next n _ =>
    rw [toList_portText, List.mem_cons]
    rintro (same | mem)
    · exact sign same
    · have digit := Nat.isDigit_of_mem_toDigits (by decide) (by decide) mem
      rw [other] at digit
      contradiction
  · simp

theorem readHost_text (proper : p.Proper) : readHost (p.host.toList ++ p.portText.toList) c
    = .ok { c with host := p.host, port := p.port.getD c.port } := by
  obtain ⟨filled, plain⟩ := proper.host
  have absent : ':' ∉ p.host.toList := fun mem => (plain ':' mem).1 rfl
  unfold Parts.portText
  cases given : p.port with
  | none =>
    have filled : p.host.toList.isEmpty = false := by simpa using filled
    simp [readHost, Split.first?_eq_none_iff.mpr absent, filled]
  | some n =>
    have small : n ≤ 65535 := proper.port n given
    have read : Positional.unsigned? Json.max16 (Positional.decimal n) = some n :=
      Positional.unsigned?_eq_some_iff.mpr ⟨Positional.spells_decimal n, small⟩
    rw [readHost, toList_portText, Split.first?_append _ absent]
    simp [read]

theorem readDatabase_text (proper : p.Proper) (plain : '/' ∉ front) :
    readDatabase (front ++ p.databaseText.toList) c
      = ({ c with database := p.database.getD c.database }, front) := by
  unfold Parts.databaseText
  cases given : p.database with
  | none => simp [readDatabase, Split.first?_eq_none_iff.mpr plain]
  | some name =>
    have filled : name.toList ≠ [] := by simpa using (proper.database name given).1
    obtain ⟨c, more, written⟩ := List.exists_cons_of_ne_nil filled
    have cut : Split.first? '/' (front ++ ("/" ++ name).toList) = some (front, c :: more) := by
      rw [String.toList_append, written]
      exact Split.first?_append _ plain
    have same : String.ofList (c :: more) = name := by rw [← written, String.ofList_toList]
    simp only [readDatabase, cut, same, Option.getD_some]

theorem readUser_text (proper : p.Proper) {rest : List Char} (plain : '@' ∉ rest) :
    readUser (p.credentialsText.toList ++ rest) ServerConfig.default =
      ({ ServerConfig.default with
          user := (p.credentials.map Credentials.user).getD ServerConfig.default.user
          password := p.credentials.bind Credentials.password }, rest) := by
  unfold Parts.credentialsText
  cases given : p.credentials with
  | none =>
    simp only [readUser, String.toList_empty, List.nil_append, Split.last?_eq_none plain]
    rfl
  | some who =>
    obtain ⟨user, password⟩ := who
    have absent : ':' ∉ user.toList := (proper.user _ given).1
    have cut (who : String) : Split.last? '@' ((who ++ "@").toList ++ rest) = some (who.toList, rest) := by
      rw [String.toList_append, List.append_assoc]
      exact Split.last?_append _ plain
    cases password with
    | none =>
      simp only [readUser, cut, Split.first?_eq_none_iff.mpr absent, String.ofList_toList]
      rfl
    | some password =>
      have parts : Split.first? ':' (user ++ ":" ++ password).toList = some (user.toList, password.toList) := by
        rw [String.toList_append, String.toList_append, List.append_assoc]
        exact Split.first?_append _ absent
      simp only [readUser, cut, parts, String.ofList_toList]
      rfl

theorem place_text (plain : '?' ∉ front) : place (front ++ p.parametersText.toList) = front := by
  unfold Parts.parametersText
  split
  · simpa [place] using Split.takeWhile_of_not_mem plain
  · rw [String.toList_append]
    exact Split.takeWhile_append_cons plain

theorem parameterTexts_text (proper : p.Proper) (plain : '?' ∉ front) :
    parameterTexts (front ++ p.parametersText.toList) = p.parameters.map fun x => x.text.toList := by
  unfold Parts.parametersText
  cases given : p.parameters with
  | nil =>
    rw [String.toList_empty, List.append_nil, parameterTexts, Split.dropWhile_of_not_mem plain]
    rfl
  | cons x ps =>
    have apart : ∀ l ∈ (x :: ps).map fun x => x.text.toList, '&' ∉ l := by
      intro l mem
      obtain ⟨y, inside, rfl⟩ := List.mem_map.mp mem
      exact (proper.parameters y (given ▸ inside)).plain
    have query : ("?" ++ "&".intercalate ((x :: ps).map Parameter.text)).toList
        = '?' :: ['&'].intercalate ((x :: ps).map fun x => x.text.toList) := by
      rw [String.toList_append, String.toList_intercalate, List.map_map]
      rfl
    simp only [query, parameterTexts, Split.dropWhile_append_cons plain]
    exact List.splitOn_intercalate '&' apart (List.cons_ne_nil _ _)

/-! Putting it together -/

theorem not_mem_databaseText {d : Char} (other : d ≠ '/') (absent : ∀ name ∈ p.database, d ∉ name.toList) :
    d ∉ p.databaseText.toList := by
  unfold Parts.databaseText
  split
  · next name given => simp [other, absent name given]
  · simp

theorem not_mem_credentialsText (proper : p.Proper) : '?' ∉ p.credentialsText.toList := by
  unfold Parts.credentialsText
  split
  · next user password given =>
    simp [(proper.user _ given).2, proper.password _ given password rfl]
  · next user given => simp [(proper.user _ given).2]
  · simp

theorem follows_text (proper : p.Proper) : Follows p.text
    (p.credentialsText ++ (p.host ++ p.portText ++ p.databaseText) ++ p.parametersText) := by
  have short : "postgres://" = "postgres" ++ "://" := rfl
  have long : "postgresql://" = "postgresql" ++ "://" := rfl
  unfold Follows Parts.text
  rw [short, long]
  simp only [String.append_assoc]
  exact proper.scheme.imp (fun same => by rw [same]) fun same => by rw [same]

/-- A string that is put together from parts is read as these parts. -/
theorem read_text (proper : p.Proper) : read p.text = .ok p.config := by
  have host (d : Char) (separator : d = ':' ∨ d = '/' ∨ d = '?' ∨ d = '@') : d ∉ p.host.toList := by
    intro mem
    have others := proper.host.2 d mem
    tauto
  let address := p.host.toList ++ p.portText.toList
  have noSlash : '/' ∉ address := by
    simp [address, host '/', not_mem_portText]
  have noAt : '@' ∉ address ++ p.databaseText.toList := by
    simp [address, host '@', not_mem_portText,
      not_mem_databaseText (p := p) (d := '@') (by decide) fun name given => (proper.database name given).2.2]
  have noQuestion : '?' ∉ p.credentialsText.toList ++ (address ++ p.databaseText.toList) := by
    simp [address, host '?', not_mem_portText, not_mem_credentialsText proper,
      not_mem_databaseText (p := p) (d := '?') (by decide) fun name given => (proper.database name given).2.1]
  have after : afterScheme? p.text.toList = some (p.credentialsText.toList ++ (address ++ p.databaseText.toList)
      ++ p.parametersText.toList) := by
    rw [afterScheme?_eq_some_iff]
    simpa [address, String.append_assoc] using follows_text proper
  rw [read_eq after, place_text noQuestion, parameterTexts_text proper noQuestion]
  simp only [readUser_text proper noAt, readDatabase_text proper noSlash, address, readHost_text proper]
  exact readParameters_text proper.parameters

/-- A connection string is read as the parts that it was put together from, and a string is refused only
for its scheme, its port or a mode of encryption. -/
theorem connection_strings_read_back :
    (∀ p : Parts, p.Proper → ServerConfig.ofConnectionString p.text = .ok p.config) ∧
    ∀ s, (∃ e, ServerConfig.ofConnectionString s = .error e) ↔ Faulty s := by
  refine ⟨fun p proper => ?_, fun s => fails_mapError.trans fails_read⟩
  rw [ServerConfig.ofConnectionString, read_text proper]
  rfl

/-- A user and a password with separators in them, and two modes of encryption. -/
theorem connection_strings_read_back_separators :
    let p : Parts := ⟨"postgresql", some ⟨"a@b/c", some ":p@/:"⟩, "db", some 5433, some "x/y:z",
      [.mode .disable "disable", .other "a=b?c", .mode .require "ReQuire"]⟩
    p.Proper ∧
      p.text = "postgresql://a@b/c::p@/:@db:5433/x/y:z?sslmode=disable&a=b?c&sslmode=ReQuire" ∧
      ServerConfig.ofConnectionString p.text = .ok { ServerConfig.default with
        host := "db", port := 5433, database := "x/y:z", user := "a@b/c", password := some ":p@/:",
        sslMode := .require } := by
  intro p
  have proper : p.Proper := by
    refine ⟨.inr rfl, ?_, ?_, ?_, ?_, ?_, ?_⟩
    · rintro _ ⟨⟩
      decide
    · rintro _ ⟨⟩ _ ⟨⟩
      decide
    · simp [p]
    · rintro _ ⟨⟩
      decide
    · rintro _ ⟨⟩
      decide
    · simp only [p, List.forall_mem_cons, Parameter.Proper, ← String.toList_inj, toList_toLower]
      exact ⟨by decide, by decide, by decide, by simp⟩
  exact ⟨proper, by decide, connection_strings_read_back.1 p proper⟩

end AuditTrail.ConnectionString
