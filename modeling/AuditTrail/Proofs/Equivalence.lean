import AuditTrail.Proofs.Embedded.Reachable
import AuditTrail.Proofs.Embedded.Representation
import AuditTrail.Proofs.Ledger.Same
import AuditTrail.Proofs.Server.Representation

/-! Both kinds of store keep one contract. Each of them represents a ledger in a way of its own, and each
request comes to what it comes to on the ledger. So no client can tell by its answers which kind of store
it talks to, unless it asks for more labels and conditions at a time than the embedded engine takes. The
rows on either side may stand in any order. -/
namespace AuditTrail

/-- A session with an embedded database whose rows hold the projects and records of a ledger. -/
def Embedded.Session.Holds (s : Session) (l : Ledger) : Prop :=
  ∃ c m, s.Serves c ∧ c.Represents m ∧ l.Same m

/-- A server between transactions whose lasting tables hold the projects and records of a ledger. -/
def Server.Engine.Holds (e : Engine) (l : Ledger) : Prop :=
  ∃ T m, e = ⟨Tables.database T, .idle⟩ ∧ Tables.Holds T m ∧ l.Same m

variable {l : Ledger} {r : AuditTrail.Request}

section Stores

variable (sound : l.Sound) (plain : l.Plain) (request : r.Plain)
include sound plain request

theorem Embedded.Session.Holds.after {s : Session} (holds : s.Holds l) :
    (s.reply r).mapError Error.outline = l.replyWithin r ∧ (s.after r).Holds (l.after r) := by
  obtain ⟨c, m, serves, represents, same⟩ := holds
  have sound' := same.sound sound
  have plain' := same.plain plain
  refine ⟨?_, _, _, serves.after r, represents.after sound' plain' request, same.after sound r⟩
  rw [serves.reply, represents.reply sound' plain' request, Ledger.replyWithin, Ledger.replyWithin,
    same.reply_eq sound]

theorem Server.Engine.Holds.after (numbering : Numbering) (config : ServerConfig) {e : Engine}
    (holds : e.Holds l) {line : Line} (connects : line.CanConnect) :
    ∃ answer line' e',
      line.run (Peer.database numbering) ((store config).handle r) e = (answer, line', e') ∧
      answer.mapError Error.outline = l.reply r ∧ line'.CanConnect ∧ e'.Holds (l.after r) := by
  obtain ⟨T, m, rfl, holds, same⟩ := holds
  obtain ⟨line', connects', ran⟩ := Line.run_database numbering (connects_handle config r) connects
    ⟨T.database, .idle⟩
  obtain ⟨reply, T', holds', left⟩ := Serves.answer numbering holds
    (holds.handle numbering (same.sound sound) (same.plain plain) config request)
  refine ⟨_, line', _, ran, ?_, connects', T', _, left, holds', same.after sound r⟩
  rw [reply, same.reply_eq sound]

end Stores

/-! Several requests -/

/-- The answers to requests that are carried out on a line one after the other, and the line and the server
afterwards. -/
def Server.converse {σ : Type} (peer : Peer σ) (config : ServerConfig) :
    List AuditTrail.Request → Line → σ → List (Except Error Answer) × Line × σ
  | [], line, s => ([], line, s)
  | r :: rs, line, s =>
    let (answer, line, s) := line.run peer ((store config).handle r) s
    let (answers, line, s) := converse peer config rs line s
    (answer :: answers, line, s)

/-- The answers to requests to a ledger, one after the other. -/
def Ledger.replies (reply : Ledger → Request → Except Error Answer) :
    Ledger → List Request → List (Except Error Answer)
  | _, [] => []
  | l, r :: rs => reply l r :: replies reply (l.after r) rs

section Runs

variable {rs : List AuditTrail.Request} (sound : l.Sound) (plain : l.Plain) (requests : ∀ r ∈ rs, r.Plain)
include sound plain requests

theorem Embedded.Session.Holds.afterAll {s : Session} (holds : s.Holds l) :
    (s.replies rs).map (·.mapError Error.outline) = Ledger.replies Ledger.replyWithin l rs ∧
      (s.afterAll rs).Holds (rs.foldl Ledger.after l) := by
  induction rs generalizing s l with
  | nil => exact ⟨rfl, holds⟩
  | cons r rs ih =>
    obtain ⟨request, requests⟩ := List.forall_mem_cons.mp requests
    obtain ⟨reply, holds⟩ := holds.after sound plain request
    obtain ⟨others, holds⟩ := ih (sound.after r) (plain.after request) requests holds
    refine ⟨?_, holds⟩
    rw [replies, List.map_cons, reply, others]
    rfl

theorem Server.Engine.Holds.afterAll (numbering : Numbering) (config : ServerConfig) {e : Engine}
    (holds : e.Holds l) {line : Line} (connects : line.CanConnect) :
    ∃ answers line' e', converse (Peer.database numbering) config rs line e = (answers, line', e') ∧
      answers.map (·.mapError Error.outline) = Ledger.replies Ledger.reply l rs ∧ line'.CanConnect ∧
      e'.Holds (rs.foldl Ledger.after l) := by
  induction rs generalizing e l line with
  | nil => exact ⟨[], line, e, rfl, rfl, connects, holds⟩
  | cons r rs ih =>
    obtain ⟨request, requests⟩ := List.forall_mem_cons.mp requests
    obtain ⟨answer, line₁, e₁, ran, reply, connects, holds⟩ :=
      holds.after sound plain request numbering config connects
    obtain ⟨answers, line₂, e₂, others, replies, connects, holds⟩ :=
      ih (sound.after r) (plain.after request) requests holds connects
    refine ⟨answer :: answers, line₂, e₂, ?_, ?_, connects, holds⟩
    · simp only [converse, ran, others]
    · rw [List.map_cons, reply, replies]
      rfl

end Runs

/-! Stores that hold a ledger -/

theorem Embedded.Session.holds_opened (place : EmbeddedPlace) : (Session.opened place).Holds .empty :=
  ⟨.empty, .empty, serves_of_openStore (openStore_empty place), Content.represents_empty, .refl _⟩

def Server.Engine.fresh : Engine := ⟨Tables.database ⟨[], [], []⟩, .idle⟩

theorem Server.Engine.holds_fresh : Engine.fresh.Holds .empty :=
  ⟨⟨[], [], []⟩, .empty, rfl, ⟨rfl, rfl, .refl _, .nil⟩, .refl _⟩

/-- Requests lead both kinds of store from nothing to every ledger that keeps the rules. -/
theorem exists_holding (sound : l.Sound) (plain : l.Plain) (place : EmbeddedPlace)
    (numbering : Server.Numbering) (config : ServerConfig) {line : Server.Line}
    (connects : line.CanConnect) :
    ((Embedded.Session.opened place).afterAll l.creation).Holds l ∧
      (Server.converse (.database numbering) config l.creation line .fresh).2.2.Holds l := by
  have embedded := (Embedded.Session.holds_opened place).afterAll Ledger.sound_empty Ledger.plain_empty
    (Ledger.plain_creation plain)
  obtain ⟨answers, line', e, ran, -, -, server⟩ := Server.Engine.holds_fresh.afterAll Ledger.sound_empty
    Ledger.plain_empty (Ledger.plain_creation plain) numbering config connects
  rw [Ledger.after_creation sound] at embedded server
  rw [ran]
  exact ⟨embedded.2, server⟩

/-- Whatever is asked of an embedded store and of a server store that hold the same ledger of plain values,
both give the answer that the contract says or fail for the reason that it says, up to what errors say about
the inside of a store, and both hold the ledger afterwards that it says. But where a listing of records asks
for more labels and conditions than the embedded engine takes, the embedded store keeps the answer back. -/
theorem stores_agree (numbering : Server.Numbering) (config : ServerConfig) (sound : l.Sound)
    (plain : l.Plain) (request : r.Plain) {s : Embedded.Session} (embedded : s.Holds l)
    {line : Server.Line} (connects : line.CanConnect) {e : Server.Engine} (server : e.Holds l) :
    let ran := line.run (.database numbering) ((Server.store config).handle r) e
    (s.reply r).mapError Error.outline = l.replyWithin r ∧ ran.1.mapError Error.outline = l.reply r ∧
      (s.after r).Holds (l.after r) ∧ ran.2.2.Holds (l.after r) := by
  obtain ⟨reply, held⟩ := embedded.after sound plain request
  obtain ⟨answer, line', e', ran, reply', -, held'⟩ :=
    server.after sound plain request numbering config connects
  simp only [ran]
  exact ⟨reply, reply', held, held'⟩

/-- The changes of a record are replaced by more of them, and its labels stay. -/
theorem stores_agree_replaced_changes :
    let p : Project := ⟨.ofNat 7, ⟨1483228799, 999999000⟩, "Ledger of \"é\"", .on, .off⟩
    let old : Change := ⟨"name", none, some [1], none⟩
    let x : Record := {
      id := .ofNat 2
      project := .ofNat 7
      createTime := ⟨5, 6000⟩
      labels := .ofList [("env", "prod"), ("", "")]
      resource := ⟨"vm", "vm-1", .empty, [old]⟩
      operation := ⟨"op-1", "start", ⟨0, 1000⟩, .empty, ⟨none, none⟩, .succeeded⟩
      actor := ⟨"alice", "user", .empty⟩ }
    let resource : Resource := ⟨"vm", "vm-1", .empty, [default, old, old]⟩
    let l : Ledger := ⟨[p], [x]⟩
    let m : Ledger := ⟨[p], [{ x with resource := resource }]⟩
    let r : Request := .updateRecord p.id x.id ⟨none, some resource, none, none⟩
    let line : Server.Line := .idle .default
    let s := (Embedded.Session.opened .default).afterAll l.creation
    let e := (Server.converse (.database .ascending) .default l.creation line .fresh).2.2
    let ran := line.run (.database .ascending) ((Server.store .default).handle r) e
    (s.reply r).mapError Error.outline = .ok (.record { x with resource := resource }) ∧
      ran.1.mapError Error.outline = .ok (.record { x with resource := resource }) ∧
      (s.after r).Holds m ∧ ran.2.2.Holds m := by
  intro p old x resource l m r line s e
  have sound : l.Sound := ⟨by decide +kernel, by decide +kernel, by decide +kernel⟩
  have plain : l.Plain := ⟨by decide +kernel, by decide +kernel⟩
  have connects : line.CanConnect := .inr (by decide)
  obtain ⟨embedded, server⟩ : s.Holds l ∧ e.Holds l :=
    exists_holding sound plain .default .ascending .default connects
  have reply : l.reply r = .ok (.record { x with resource := resource }) := by decide +kernel
  have after : l.after r = m := by decide +kernel
  have within : l.replyWithin r = l.reply r := Ledger.replyWithin_of_terms (r := r) (Nat.zero_le termLimit)
  have agree := stores_agree .ascending .default sound plain (show r.Plain by decide +kernel) embedded
    connects server
  rwa [within, reply, after] at agree

theorem Id.plain_text (id : Id) : PlainText id.text := by
  rw [PlainText, Id.text, String.toList_ofList]
  intro mem
  rcases mem_hyphenate mem with hyphen | digit
  · exact absurd hyphen (by decide)
  · exact absurd (hexValue?_of_mem_hexDigits digit) (by decide)

theorem plain_numberedLabels (n : Nat) (few : n ≤ Id.count) : (numberedLabels n few).Plain := by
  intro e mem
  obtain ⟨k, -, rfl⟩ := List.mem_map.mp mem
  exact ⟨(Id.ofNat k).plain_text, show PlainText "" by decide⟩

/-- A listing that asks for 994 labels of a project without records is answered by the server store, and
fails in the embedded one. -/
theorem stores_differ_on_many_labels :
    let l : Ledger := ⟨[default], []⟩
    let f : RecordFilter := { (default : RecordFilter) with labels := numberedLabels 994 (by decide) }
    let r : Request := .listRecords default f 10 .start
    let line : Server.Line := .idle .default
    let s := (Embedded.Session.opened .default).afterAll l.creation
    let e := (Server.converse (.database .ascending) .default l.creation line .fresh).2.2
    let ran := line.run (.database .ascending) ((Server.store .default).handle r) e
    (l.Sound ∧ l.Plain ∧ r.Plain ∧ line.CanConnect ∧ s.Holds l ∧ e.Holds l) ∧
      (s.reply r).mapError Error.outline = .error .inside ∧
      ran.1.mapError Error.outline = .ok (.records []) := by
  intro l f r line s e ran
  have sound : l.Sound := ⟨by decide +kernel, by decide +kernel, by decide +kernel⟩
  have plain : l.Plain := ⟨by decide +kernel, by decide +kernel⟩
  have connects : line.CanConnect := .inr (by decide)
  have request : r.Plain := by
    refine ⟨fun c mem => ?_, by decide⟩
    rcases RecordFilter.mem_filtering mem with rfl | others
    · exact plain_numberedLabels 994 (by decide)
    · exact absurd others (show c ∉ [] from List.not_mem_nil)
  obtain ⟨embedded, server⟩ : s.Holds l ∧ e.Holds l :=
    exists_holding sound plain .default .ascending .default connects
  obtain ⟨refused, -⟩ := embedded.after sound plain request
  obtain ⟨answer, line', e', answered, reply, -, -⟩ :=
    server.after sound plain request .ascending .default connects
  have empty : l.reply r = .ok (.records []) := by decide +kernel
  have many : ¬ r.terms ≤ termLimit := by decide +kernel
  rw [Ledger.replyWithin, empty] at refused
  rw [empty] at reply
  refine ⟨⟨sound, plain, request, connects, embedded, server⟩, ?_, ?_⟩
  · rw [refused]
    simp only [many, if_false]
    rfl
  · rw [show ran = (answer, line', e') from answered]
    exact reply

end AuditTrail
