import AuditTrail.CommandLine.Process
import AuditTrail.Config.Store
import AuditTrail.Embedded.Store
import AuditTrail.Proofs.Result
import Mathlib.Data.List.Basic

/-! The pool of an embedded database. Whoever breaks a demand of the pool does not get an error: the
program stops. Settings in which no problem is found meet two of the demands and can break the third,
since nobody looks at the time for which a client waits. -/
namespace AuditTrail

theorem PoolDemand.mem_all (d : PoolDemand) : d ∈ all := by cases d <;> decide

namespace PoolPlan

theorem build_eq_ok_iff (p : PoolPlan) : p.build = .ok () ↔ ∀ d, PoolDemand.holds p d := by
  rw [build]
  constructor
  · intro built d
    split at built
    · cases built
    · next none => simpa using List.find?_eq_none.mp none d d.mem_all
  · intro met
    have none : PoolDemand.all.find? (fun d => !d.holds p) = none :=
      List.find?_eq_none.mpr fun d _ => by simp [met d]
    rw [none]

theorem build_eq_error (p : PoolPlan) (d : PoolDemand)
    (broken : ∀ e, PoolDemand.holds p e = false ↔ e = d) : p.build = .error d := by
  have alone : (fun e : PoolDemand => !e.holds p) = fun e => decide (e = d) := by
    funext e
    by_cases here : e = d
    · simp [here, (broken d).mpr rfl]
    · simp [here, mt (broken e).mp here]
  rw [build, alone]
  cases d <;> rfl

end PoolPlan

namespace EmbeddedPlace

variable {p : EmbeddedPlace}

/-- A database in memory has a pool of one connection that is always kept, whatever is asked for. -/
theorem poolPlan_of_memory (memory : p.path = memoryPath) :
    p.poolPlan = ⟨1, 1, p.backend.connectionTimeoutMs⟩ :=
  if_pos memory

theorem poolPlan_of_file (file : p.path ≠ memoryPath) : p.poolPlan
    = ⟨p.backend.maxConnections, p.backend.minConnections, p.backend.connectionTimeoutMs⟩ :=
  if_neg file

end EmbeddedPlace

namespace StoreConfig

@[simp] theorem problemIf_eq_nil (p : ConfigProblem) (holds : Bool) :
    problemIf p holds = [] ↔ holds = false := by
  cases holds <;> simp [problemIf]

variable {c : StoreConfig} (chosen : c.kind = .embedded) (valid : c.problems = [])
include chosen valid

/-- What is known of the connections of an embedded database when no problem was found. -/
theorem connections_of_valid : 0 < c.embedded.backend.maxConnections
    ∧ c.embedded.backend.minConnections ≤ c.embedded.backend.maxConnections := by
  simp only [problems, chosen, List.append_eq_nil_iff, problemIf_eq_nil, decide_eq_false_iff_not,
    Nat.not_lt] at valid
  exact ⟨Nat.pos_of_ne_zero valid.1.2, valid.2⟩

/-- Which demands of its pool valid settings break. -/
theorem broken_iff_of_valid (d : PoolDemand) : d.holds c.embedded.poolPlan = false
    ↔ d = .patience ∧ c.embedded.backend.connectionTimeoutMs = 0 := by
  obtain ⟨room, idle⟩ := connections_of_valid chosen valid
  by_cases memory : c.embedded.path = memoryPath
  · have plan := EmbeddedPlace.poolPlan_of_memory memory
    cases d <;> simp [PoolDemand.holds, plan]
  · have plan := EmbeddedPlace.poolPlan_of_file memory
    cases d <;> simp [PoolDemand.holds, plan, room, idle]

theorem build_of_valid : c.embedded.poolPlan.build
    = if c.embedded.backend.connectionTimeoutMs = 0 then .error .patience else .ok () := by
  have broken := broken_iff_of_valid chosen valid
  split
  · next impatient =>
    exact PoolPlan.build_eq_error _ _ fun d => (broken d).trans (and_iff_left impatient)
  · next patient =>
    refine (PoolPlan.build_eq_ok_iff _).mpr fun d => ?_
    by_contra unmet
    exact patient ((broken d).mp (Bool.eq_false_iff.mpr unmet)).2

end StoreConfig

namespace Embedded

/-- A database whose settings are valid is opened, or not, as one whose pool is there already, unless a
client is to wait no time at all. Then the program stops at the one demand that the settings break. -/
theorem valid_settings_launch_unless_impatient (c : StoreConfig) (chosen : c.kind = .embedded)
    (valid : c.problems = []) :
    (∀ d, PoolDemand.holds c.embedded.poolPlan d = false
      ↔ d = .patience ∧ c.embedded.backend.connectionTimeoutMs = 0)
    ∧ ∀ (reachable : Bool) (file : Option Database),
      Session.launch c.embedded reachable file
          = (if c.embedded.backend.connectionTimeoutMs = 0 then .error .patience
            else .ok (Session.start c.embedded reachable file))
        ∧ launchStore c.embedded reachable file
          = if c.embedded.backend.connectionTimeoutMs = 0 then .error .patience
            else .ok (openStore c.embedded reachable file) := by
  refine ⟨StoreConfig.broken_iff_of_valid chosen valid, fun reachable file => ?_⟩
  rw [Session.launch, launchStore, StoreConfig.build_of_valid chosen valid]
  split <;> exact ⟨rfl, rfl⟩

/-- A file with a pool that is as small as it may be, and a client that waits a millisecond. -/
theorem valid_settings_launch_unless_impatient_file :
    let c : StoreConfig := { StoreConfig.default with
      embedded := ⟨"audit.db", { EmbeddedConfig.default with
        maxConnections := 1, minConnections := 1, connectionTimeoutMs := 1 }⟩ }
    (∀ d, PoolDemand.holds c.embedded.poolPlan d)
      ∧ Session.launch c.embedded true none = .ok (Session.start c.embedded true none) := by
  intro c
  obtain ⟨broken, launched⟩ := valid_settings_launch_unless_impatient c rfl (by decide)
  refine ⟨fun d => ?_, (launched true none).1⟩
  by_contra unmet
  exact absurd ((broken d).mp (Bool.eq_false_iff.mpr unmet)).2 (by decide)

/-- No problem is found in the settings, and the program stops. -/
theorem valid_settings_stop_the_program :
    let c : StoreConfig := { StoreConfig.default with
      embedded := ⟨memoryPath, { EmbeddedConfig.default with connectionTimeoutMs := 0 }⟩ }
    c.kind = .embedded ∧ c.problems = [] ∧ ¬ (∀ d, PoolDemand.holds c.embedded.poolPlan d)
      ∧ launchStore c.embedded true (some Database.empty) = .error .patience := by
  refine ⟨rfl, by decide, fun met => ?_, rfl⟩
  exact absurd (met .patience) (by decide)

end Embedded

namespace CommandLine

/-- The settings of a plan are those of its command line. -/
theorem config_of_plan {env : Environment} {args : List String} {p : Plan}
    (planned : plan env args = .ok p) : ∃ i : Invocation, i.storeConfig env = .ok p.config := by
  unfold plan at planned
  obtain ⟨i, -, planned⟩ := bind_eq_ok.mp planned
  dsimp only at planned
  split at planned
  · cases planned
  obtain ⟨config, configured, planned⟩ := bind_eq_ok.mp planned
  split at planned
  · cases planned
  have same : config = p.config := congrArg Plan.config (Except.ok.inj planned)
  cases chosen : i.storeConfig env with
  | error e => simp [chosen, Except.mapError] at configured
  | ok settings =>
    rw [chosen] at configured
    exact ⟨i, chosen.trans (congrArg Except.ok ((Except.ok.inj configured).trans same))⟩

/-- On a command line nobody chooses how long a client waits, so that no run is stopped by its pool. -/
theorem pool_of_plan {env : Environment} {args : List String} {p : Plan}
    (planned : plan env args = .ok p) : p.config.embedded.poolPlan.build = .ok () := by
  obtain ⟨i, configured⟩ := config_of_plan planned
  have place : p.config.embedded = ⟨i.options.databasePath,
      { EmbeddedConfig.default with logQueries := i.options.logQueries }⟩ := by
    unfold Invocation.storeConfig at configured
    dsimp only at configured
    split at configured <;>
      obtain ⟨server, -, chosen⟩ := bind_eq_ok.mp configured <;>
      exact congrArg StoreConfig.embedded (Except.ok.inj chosen).symm
  refine (PoolPlan.build_eq_ok_iff _).mpr fun d => ?_
  rw [place]
  by_cases memory : i.options.databasePath = memoryPath
  · rw [EmbeddedPlace.poolPlan_of_memory memory]
    cases d <;> rfl
  · rw [EmbeddedPlace.poolPlan_of_file memory]
    cases d <;> rfl

end CommandLine

end AuditTrail
