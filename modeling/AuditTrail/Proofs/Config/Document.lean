import AuditTrail.Config.Store
import AuditTrail.Proofs.Limits.Document

/-! The configuration of a store and its documents. No part of it is a limit with a size, so a document
may lack whatever it likes. -/
namespace AuditTrail

open Json

/-! Numbers that are within their types -/

structure EmbeddedConfig.Fits (c : EmbeddedConfig) : Prop where
  maxConnections : c.maxConnections ≤ max32
  minConnections : c.minConnections ≤ max32
  connectionTimeoutMs : c.connectionTimeoutMs ≤ max64
  busyTimeoutMs : c.busyTimeoutMs ≤ max32

structure ServerConfig.Fits (c : ServerConfig) : Prop where
  port : c.port ≤ max16
  maxConnections : c.maxConnections ≤ max64
  connectTimeoutSecs : c.connectTimeoutSecs ≤ max64
  statementTimeoutMs : c.statementTimeoutMs ≤ max64

structure StoreConfig.Fits (c : StoreConfig) : Prop where
  embedded : c.embedded.backend.Fits
  server : c.server.Fits

theorem EmbeddedConfig.fits_default : EmbeddedConfig.default.Fits := by
  constructor <;> decide

theorem ServerConfig.fits_default : ServerConfig.default.Fits := by
  constructor <;> decide

/-! Values with names -/

theorem SslMode.find?_name (m : SslMode) : all.find? (name · = name m) = some m := by
  cases m <;> decide

theorem SslMode.injective : Function.Injective (named name all).write := by
  intro m n same
  cases m <;> cases n <;> first | rfl | exact absurd (Json.string.inj same) (by decide)

theorem StoreKind.find?_name (k : StoreKind) : all.find? (name · = name k) = some k := by
  cases k <;> decide

theorem StoreKind.injective : Function.Injective (named name all).write := by
  intro k l same
  cases k <;> cases l <;> first | rfl | exact absurd (Json.string.inj same) (by decide)

theorem textual_injective : Function.Injective textual.write := fun _ _ => Json.string.inj

theorem optional_textual_injective : Function.Injective textual.optional.write := by
  rintro (_ | s) (_ | t) same
  · rfl
  · cases same
  · cases same
  · exact congrArg some (Json.string.inj same)

/-! Layouts -/

namespace EmbeddedConfig

theorem regular : layout.Regular where
  names := by decide
  defaulted := by simp [layout, Field.of, sizeName]
  apart := by simp [layout, Field.Apart, Field.keeps_of]
  determined := by
    rintro ⟨⟩ ⟨⟩
    simp [layout, Field.of, unsigned, truth]

theorem injective : Function.Injective codec.write := layout.write_injective regular

theorem fills {c : EmbeddedConfig} (fits : c.Fits) : codec.Fills default c := by
  refine layout.fills regular ?_
  simp [layout, Field.fills_of, Codec.fills_unsigned, Codec.fills_truth, fits.maxConnections,
    fits.minConnections, fits.connectionTimeoutMs, fits.busyTimeoutMs]

theorem not_losesSize (removed : Paths) (c : EmbeddedConfig) : ¬ LosesSize removed (codec.write c) := by
  refine layout.not_losesSize regular ?_ removed c
  simp [layout, Field.of, unsigned, truth, not_losesSize_of_leaf]

end EmbeddedConfig

namespace EmbeddedPlace

theorem regular : layout.Regular where
  names := by decide
  defaulted := by simp [layout, Field.of, sizeName]
  apart := by simp [layout, Field.Apart, Field.keeps_of]
  determined := by
    rintro ⟨⟩ ⟨⟩
    simp [layout, Field.of, textual_injective.eq_iff, EmbeddedConfig.injective.eq_iff]

theorem injective : Function.Injective layout.codec.write := layout.write_injective regular

theorem fills {p : EmbeddedPlace} (fits : p.backend.Fits) : layout.codec.Fills default p := by
  refine layout.fills regular ?_
  simp [layout, default, Field.fills_of, Codec.fills_textual, EmbeddedConfig.fills fits]

theorem not_losesSize (removed : Paths) (p : EmbeddedPlace) : ¬ LosesSize removed (layout.codec.write p) := by
  refine layout.not_losesSize regular ?_ removed p
  simp [layout, Field.of, textual, not_losesSize_of_leaf, EmbeddedConfig.not_losesSize]

end EmbeddedPlace

namespace ServerConfig

theorem regular : layout.Regular where
  names := by decide
  defaulted := by simp [layout, Field.of, sizeName]
  apart := by simp [layout, Field.Apart, Field.keeps_of]
  determined := by
    rintro ⟨⟩ ⟨⟩
    simp [layout, Field.of, unsigned, truth, SslMode.injective.eq_iff, textual_injective.eq_iff,
      optional_textual_injective.eq_iff]

theorem injective : Function.Injective codec.write := layout.write_injective regular

theorem fills {c : ServerConfig} (fits : c.Fits) : codec.Fills default c := by
  refine layout.fills regular ?_
  simp [layout, Field.fills_of, Codec.fills_unsigned, Codec.fills_truth, Codec.fills_textual,
    Codec.fills_optional_textual, Codec.fills_named (SslMode.find?_name _), fits.port,
    fits.maxConnections, fits.connectTimeoutSecs, fits.statementTimeoutMs]

theorem not_losesSize (removed : Paths) (c : ServerConfig) : ¬ LosesSize removed (codec.write c) := by
  refine layout.not_losesSize regular ?_ removed c
  have password (removed : Paths) (s : Option String) :
      ¬ LosesSize removed (textual.optional.write s) :=
    not_losesSize_of_leaf fun _ same => by cases s <;> cases same
  have text (removed : Paths) (s : String) : ¬ LosesSize removed (textual.write s) :=
    not_losesSize_of_leaf nofun
  simp [layout, Field.of, unsigned, truth, named, text, password, not_losesSize_of_leaf]

end ServerConfig

namespace StoreConfig

theorem regular : layout.Regular where
  names := by decide
  defaulted := by simp [layout, Field.of, sizeName]
  apart := by simp [layout, Field.Apart, Field.keeps_of]
  determined := by
    rintro ⟨⟩ ⟨⟩
    simp [layout, Field.of, StoreKind.injective.eq_iff, EmbeddedPlace.injective.eq_iff,
      ServerConfig.injective.eq_iff]

theorem injective : Function.Injective codec.write := layout.write_injective regular

theorem fills {c : StoreConfig} (fits : c.Fits) : codec.Fills default c := by
  refine layout.fills regular ?_
  simp [layout, default, Field.fills_of, Codec.fills_named (StoreKind.find?_name _),
    EmbeddedPlace.fills fits.embedded, ServerConfig.fills fits.server]

theorem not_losesSize (removed : Paths) (c : StoreConfig) : ¬ LosesSize removed (codec.write c) := by
  refine layout.not_losesSize regular ?_ removed c
  simp [layout, Field.of, named, not_losesSize_of_leaf, EmbeddedPlace.not_losesSize,
    ServerConfig.not_losesSize]

/-- The document of a store's configuration at its defaults. -/
def defaults : Json := .object [
  ("kind", .string "sqlite"),
  ("sqlite", .object [
    ("database_path", .string ":memory:"),
    ("backend", .object [
      ("max_connections", .number 10),
      ("min_connections", .number 1),
      ("connection_timeout_ms", .number 30000),
      ("busy_timeout_ms", .number 5000),
      ("enable_wal", .boolean true),
      ("enable_foreign_keys", .boolean true),
      ("log_queries", .boolean false)])]),
  ("postgres", .object [
    ("host", .string "localhost"),
    ("port", .number 5432),
    ("dbname", .string "auditum"),
    ("user", .string "auditum"),
    ("password", .null),
    ("ssl_mode", .string "prefer"),
    ("max_connections", .number 10),
    ("connect_timeout_secs", .number 5),
    ("statement_timeout_ms", .number 30000),
    ("tenant_partitioning", .boolean true),
    ("log_queries", .boolean false)])]

theorem write_default : codec.write default = defaults := rfl

end StoreConfig

/-- Settings and the configuration of a store are read back from their documents, and from documents
that lack members, where the defaults stand in for what is missing. Only a limit on a size that has
lost the size is refused. -/
theorem partial_documents_fill_gaps :
    (∀ s : Settings, s.Fits →
      Settings.codec.ofText? (Settings.codec.write s).text = some s ∧
      ∀ removed : Paths,
        (LosesSize removed (Settings.codec.write s) →
          Settings.codec.ofText? ((Settings.codec.write s).without removed).text = none) ∧
        (¬ LosesSize removed (Settings.codec.write s) →
          ∃ t, Settings.codec.ofText? ((Settings.codec.write s).without removed).text = some t ∧
            ∀ u, Settings.codec.write u = (Settings.codec.write s).patched removed Settings.defaults ↔
              u = t)) ∧
    (∀ c : StoreConfig, c.Fits →
      StoreConfig.codec.ofText? (StoreConfig.codec.write c).text = some c ∧
      ∀ removed : Paths,
        ∃ d, StoreConfig.codec.ofText? ((StoreConfig.codec.write c).without removed).text = some d ∧
          ∀ e, StoreConfig.codec.write e
              = (StoreConfig.codec.write c).patched removed StoreConfig.defaults ↔ e = d) := by
  constructor
  · intro s fits
    have fills := Settings.fills fits
    refine ⟨fills.ofText?_write Settings.injective, fun removed => ⟨fun loses => ?_, fun sized => ?_⟩⟩
    · exact (Codec.ofText?_text _ _).trans (fills.refused removed loses)
    · exact fills.exists_ofText? Settings.injective sized
  · intro c fits
    have fills := StoreConfig.fills fits
    refine ⟨fills.ofText?_write StoreConfig.injective, fun removed => ?_⟩
    exact fills.exists_ofText? StoreConfig.injective (StoreConfig.not_losesSize removed c)

/-- Of settings with one limit changed and a configuration with one host, everything else may be left
out, but not the size inside the changed limit. -/
theorem partial_documents_fill_gaps_one_change :
    let limits : RecordLimits := { RecordLimits.default with actor := ⟨256, 128, MapLimits.default⟩ }
    let s : Settings := ⟨{ RecordSettings.default with limits := limits }⟩
    let c : StoreConfig :=
      { StoreConfig.default with server := { ServerConfig.default with host := "db" } }
    let chosen : List (List String) := [["records", "updateEnabled"],
      ["records", "restrictions", "labels", "keyMaxSizeBytes"], ["records", "restrictions", "resource"],
      ["records", "restrictions", "actor", "type"], ["kind"], ["sqlite"], ["postgres", "port"]]
    let others : Paths := fun path => path ∈ chosen
    let size : Paths := fun path =>
      path = ["records", "restrictions", "actor", "id", "maxSizeBytes"]
    Settings.codec.ofText? ((Settings.codec.write s).without others).text = some s ∧
    Settings.codec.ofText? ((Settings.codec.write s).without size).text = none ∧
    StoreConfig.codec.ofText? ((StoreConfig.codec.write c).without others).text = some c := by
  intro limits s c chosen others size
  have fitsSettings : s.Fits :=
    { RecordLimits.fits_default with actor := ⟨by decide, by decide, MapLimits.fits_default⟩ }
  have fitsConfig : c.Fits :=
    ⟨EmbeddedConfig.fits_default, { ServerConfig.fits_default with }⟩
  obtain ⟨-, settings⟩ := partial_documents_fill_gaps.1 s fitsSettings
  obtain ⟨-, config⟩ := partial_documents_fill_gaps.2 c fitsConfig
  refine ⟨?_, (settings size).1 ?_, ?_⟩
  · have sized : ¬ LosesSize others (Settings.codec.write s) := by
      intro loses
      obtain ⟨path, lost⟩ := exists_of_losesSize loses
      have ends : ∀ p ∈ chosen, p.getLast? ≠ some sizeName := by decide
      exact ends _ (of_decide_eq_true lost) List.getLast?_concat
    obtain ⟨t, read, only⟩ := (settings others).2 sized
    have same : s = t := (only s).mp rfl
    rw [read, ← same]
  · exact .inside (.head _) rfl (.inside (.tail _ (.tail _ (.head _))) rfl
      (.inside (.tail _ (.tail _ (.tail _ (.head _)))) rfl
        (.inside (.tail _ (.head _)) rfl (.here (.head _) rfl))))
  · obtain ⟨d, read, only⟩ := config others
    have same : c = d := (only c).mp rfl
    rw [read, ← same]

end AuditTrail
