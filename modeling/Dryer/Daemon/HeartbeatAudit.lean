import Dryer.Daemon.ControllerDaemon
import Dryer.Library.Machine
import Mathlib.Logic.Function.Basic

/-!
# Heartbeat audits

The daemon beside what is known of each controller: its timeout, and its latest heartbeat since it
was registered. An audit misses a controller whose latest heartbeat was recorded at time 0, which
the daemon takes for a controller that was never seen.
-/
namespace Dryer.Daemon
open Library ControlProtocol ControlClient

/-- What is known of a registered controller. -/
structure Watch where
  heartbeatTimeoutUs : UInt64
  latestUs : Option UInt64

inductive DaemonEvent where
  | registerController (controllerId : String) (heartbeatTimeoutUs : UInt64)
  | recordHeartbeat (controllerId : String) (currentHostUs : UInt64)
  | updateQueueStatus (controllerId : String) (statusFrame : List UInt8) (currentHostUs : UInt64)
  | auditHeartbeats (currentHostUs : UInt64)

/-- The latest heartbeat is older than the timeout. -/
def Watch.Overdue (watch : Watch) (currentHostUs : UInt64) : Prop :=
  ∃ latestUs, watch.latestUs = some latestUs ∧
    (watch.heartbeatTimeoutUs.toNat : ℤ) < currentHostUs.toNat - latestUs.toNat

/-- The controllers that are registered, with what is known of them. -/
abbrev Watches := String → Option Watch

namespace Watches

/-- A heartbeat of a controller, which counts if it is registered. -/
def beat (watches : Watches) (controllerId : String) (currentHostUs : UInt64) : Watches :=
  match watches controllerId with
  | none => watches
  | some watch =>
    Function.update watches controllerId (some { watch with latestUs := some currentHostUs })

def step (watches : Watches) : DaemonEvent → Watches
  | .registerController controllerId heartbeatTimeoutUs =>
    Function.update watches controllerId (some { heartbeatTimeoutUs, latestUs := none })
  | .recordHeartbeat controllerId currentHostUs => watches.beat controllerId currentHostUs
  | .updateQueueStatus controllerId statusFrame currentHostUs =>
    match decodeQueueStatusFrame statusFrame with
    | .error _ => watches
    | .ok _ => watches.beat controllerId currentHostUs
  | .auditHeartbeats _ => watches

end Watches

/-- An audit, with what was known before it and the controllers that it reported. -/
structure AuditMark where
  watches : Watches
  currentHostUs : UInt64
  reported : List String

/-- Exactly the controllers that are overdue are reported. -/
def AuditMark.Exact (mark : AuditMark) : Prop :=
  ∀ controllerId, controllerId ∈ mark.reported ↔
    ∃ watch, mark.watches controllerId = some watch ∧ watch.Overdue mark.currentHostUs

structure Watched where
  daemon : ControllerDaemon
  watches : Watches

def Watched.start : Watched where
  daemon := .new
  watches _ := none

def watchedMachine : Machine Watched DaemonEvent AuditMark where
  step s event :=
    let watches := s.watches.step event
    match event with
    | .registerController controllerId heartbeatTimeoutUs =>
      (⟨s.daemon.registerController controllerId heartbeatTimeoutUs, watches⟩, [])
    | .recordHeartbeat controllerId currentHostUs =>
      (⟨(s.daemon.recordHeartbeat controllerId currentHostUs).2, watches⟩, [])
    | .updateQueueStatus controllerId statusFrame currentHostUs =>
      (⟨(s.daemon.updateQueueStatus controllerId statusFrame currentHostUs).2, watches⟩, [])
    | .auditHeartbeats currentHostUs =>
      let (reported, daemon) := s.daemon.auditHeartbeats currentHostUs
      (⟨daemon, watches⟩, [{ watches := s.watches, currentHostUs, reported }])

/-- At an audit, no controller whose latest heartbeat was recorded at time 0 is overdue. -/
def SeenAfterZero (s : Watched) : DaemonEvent → Prop
  | .auditHeartbeats currentHostUs => ∀ controllerId watch, s.watches controllerId = some watch →
    watch.latestUs = some 0 → ¬ watch.Overdue currentHostUs
  | _ => True

/-! ## Sessions follow the watches -/

/-- A session keeps what is known of its controller, with 0 where there was no heartbeat. -/
def Follows (session : Option ControllerSession) (watch : Option Watch) : Prop :=
  session.map (fun session => (session.heartbeatTimeoutUs, session.lastSeenHostUs)) =
    watch.map fun watch => (watch.heartbeatTimeoutUs, watch.latestUs.getD 0)

def Watched.Linked (s : Watched) : Prop :=
  ∀ controllerId : String, Follows s.daemon.sessions[controllerId]? (s.watches controllerId)

variable {s : Watched}

theorem Watched.Linked.watch_eq_none (h : s.Linked) {controllerId : String}
    (hsession : s.daemon.sessions[controllerId]? = none) : s.watches controllerId = none := by
  have hfollows := h controllerId
  rw [hsession] at hfollows
  simpa [Follows] using hfollows.symm

theorem Watched.Linked.exists_watch (h : s.Linked) {controllerId : String}
    {session : ControllerSession} (hsession : s.daemon.sessions[controllerId]? = some session) :
    ∃ watch, s.watches controllerId = some watch ∧ Follows (some session) (some watch) := by
  have hfollows := h controllerId
  rw [hsession] at hfollows
  cases hwatch : s.watches controllerId with
  | none =>
    rw [hwatch] at hfollows
    cases hfollows
  | some watch =>
    rw [hwatch] at hfollows
    exact ⟨watch, rfl, hfollows⟩

/-- One session changes together with its watch. -/
theorem linked_insert (h : s.Linked) {daemon : ControllerDaemon} {controllerId : String}
    {session : ControllerSession} {watch : Watch} (hfollows : Follows (some session) (some watch))
    (hsessions : daemon.sessions = s.daemon.sessions.insert controllerId session) :
    Watched.Linked ⟨daemon, Function.update s.watches controllerId (some watch)⟩ := by
  intro other
  by_cases hsame : controllerId = other
  · subst hsame
    simpa [hsessions] using hfollows
  · simpa [hsessions, Std.TreeMap.getElem?_insert, hsame, Ne.symm hsame] using h other

/-- A heartbeat is recorded in the session and in the watch, or in neither. -/
theorem linked_beat (h : s.Linked) {daemon : ControllerDaemon} {controllerId : String}
    {currentHostUs : UInt64}
    (hdaemon : ∀ session, s.daemon.sessions[controllerId]? = some session →
      ∃ lastStatus, daemon.sessions = s.daemon.sessions.insert controllerId
        (ControllerSession.recordHeartbeat { session with lastStatus } currentHostUs))
    (hunknown : s.daemon.sessions[controllerId]? = none → daemon = s.daemon) :
    Watched.Linked ⟨daemon, s.watches.beat controllerId currentHostUs⟩ := by
  unfold Watches.beat
  cases hsession : s.daemon.sessions[controllerId]? with
  | none =>
    rw [h.watch_eq_none hsession, hunknown hsession]
    exact h
  | some session =>
    obtain ⟨lastStatus, hsessions⟩ := hdaemon session hsession
    obtain ⟨watch, hwatch, hfollows⟩ := h.exists_watch hsession
    rw [hwatch]
    refine linked_insert h ?_ hsessions
    simp_all [Follows, ControllerSession.recordHeartbeat]

theorem linked_step (h : s.Linked) (event : DaemonEvent) :
    (watchedMachine.step s event).1.Linked := by
  cases event with
  | registerController controllerId heartbeatTimeoutUs =>
    have hnew : Follows (some (.new controllerId heartbeatTimeoutUs))
        (some { heartbeatTimeoutUs, latestUs := none }) := rfl
    exact linked_insert h hnew rfl
  | recordHeartbeat controllerId currentHostUs =>
    apply linked_beat h
    · intro session hsession
      refine ⟨session.lastStatus, ?_⟩
      simp [ControllerDaemon.recordHeartbeat, hsession]
    · intro hnone
      simp [ControllerDaemon.recordHeartbeat, hnone]
  | updateQueueStatus controllerId statusFrame currentHostUs =>
    simp only [watchedMachine, Watches.step]
    cases hdecode : decodeQueueStatusFrame statusFrame with
    | error e =>
      simpa [ControllerDaemon.updateQueueStatus, hdecode] using h
    | ok frame =>
      apply linked_beat h
      · intro session hsession
        refine ⟨some frame.status, ?_⟩
        simp [ControllerDaemon.updateQueueStatus, hdecode, hsession]
      · intro hnone
        simp [ControllerDaemon.updateQueueStatus, hdecode, hnone]
  | auditHeartbeats currentHostUs =>
    simp only [watchedMachine, ControllerDaemon.auditHeartbeats, Watches.step]
    split <;> exact h

/-! ## One audit -/

theorem mem_auditHeartbeats {daemon : ControllerDaemon} {currentHostUs : UInt64}
    {controllerId : String} :
    controllerId ∈ (daemon.auditHeartbeats currentHostUs).1 ↔
      ∃ session, daemon.sessions[controllerId]? = some session ∧
        session.isHeartbeatAlive currentHostUs = false := by
  simp [ControllerDaemon.auditHeartbeats, Std.TreeMap.mem_toList_iff_getElem?_eq_some]

/-- A session is dead exactly when its controller is overdue, by a heartbeat after time 0. -/
theorem isHeartbeatAlive_eq_false {session : ControllerSession} {watch : Watch}
    (h : Follows (some session) (some watch)) (currentHostUs : UInt64) :
    session.isHeartbeatAlive currentHostUs = false ↔
      watch.Overdue currentHostUs ∧ watch.latestUs ≠ some 0 := by
  obtain ⟨htimeout, hseen⟩ := Prod.mk.inj (Option.some.inj h)
  unfold ControllerSession.isHeartbeatAlive Watch.Overdue
  rw [hseen, htimeout]
  cases hlatest : watch.latestUs with
  | none => simp
  | some latestUs =>
    by_cases hzero : latestUs = 0
    · simp [hzero]
    · simp only [Option.getD_some, hzero, if_false, decide_eq_false_iff_not, UInt64.not_le,
        UInt64.lt_iff_toNat_lt, U64.toNat_saturatingSub, Option.some.injEq, exists_eq_left',
        ne_eq, not_false_eq_true, and_true]
      omega

theorem exact_iff_seenAfterZero (h : s.Linked) (event : DaemonEvent) :
    (∀ mark ∈ (watchedMachine.step s event).2, mark.Exact) ↔ SeenAfterZero s event := by
  cases event with
  | registerController | recordHeartbeat | updateQueueStatus =>
    simp [watchedMachine, SeenAfterZero]
  | auditHeartbeats currentHostUs =>
    simp only [watchedMachine, List.mem_singleton, forall_eq, AuditMark.Exact,
      mem_auditHeartbeats, SeenAfterZero]
    refine forall_congr' fun controllerId => ?_
    cases hsession : s.daemon.sessions[controllerId]? with
    | none =>
      simp [h.watch_eq_none hsession]
    | some session =>
      obtain ⟨watch, hwatch, hfollows⟩ := h.exists_watch hsession
      have hdead := isHeartbeatAlive_eq_false hfollows currentHostUs
      grind

/-! ## Runs -/

/-- The daemon is faulted exactly when an audit so far has reported a controller. -/
def FaultedByAudit (s : Watched) (marks : List AuditMark) : Prop :=
  s.daemon.state = .faulted ↔ ∃ mark ∈ marks, mark.reported ≠ []

theorem faultedByAudit_step {marks : List AuditMark} (h : FaultedByAudit s marks)
    (event : DaemonEvent) :
    FaultedByAudit (watchedMachine.step s event).1
      (marks ++ (watchedMachine.step s event).2) := by
  unfold FaultedByAudit at h ⊢
  cases event with
  | registerController controllerId heartbeatTimeoutUs =>
    simp only [watchedMachine, List.append_nil, ControllerDaemon.registerController]
    rw [← h]
    split <;> simp_all
  | recordHeartbeat controllerId currentHostUs =>
    simp only [watchedMachine, List.append_nil, ControllerDaemon.recordHeartbeat]
    rw [← h]
    split <;> rfl
  | updateQueueStatus controllerId statusFrame currentHostUs =>
    simp only [watchedMachine, List.append_nil, ControllerDaemon.updateQueueStatus]
    rw [← h]
    split
    · rfl
    · split <;> rfl
  | auditHeartbeats currentHostUs =>
    simp only [watchedMachine, ControllerDaemon.auditHeartbeats, List.mem_append,
      List.mem_singleton, or_and_right, exists_or, exists_eq_left, ← h]
    split
    · rename_i hempty
      simp [List.isEmpty_iff.mp hempty]
    · rename_i hsome
      exact iff_of_true rfl (.inr fun hnil => hsome (List.isEmpty_iff.mpr hnil))

theorem faultedByAudit_run (events : List DaemonEvent) :
    FaultedByAudit (watchedMachine.run .start events).1 (watchedMachine.run .start events).2 := by
  apply Machine.run_invariant
  · intro s marks event h
    exact faultedByAudit_step h event
  · simp [FaultedByAudit, Watched.start, ControllerDaemon.new]

theorem linked_start : Watched.start.Linked := by
  intro controllerId
  simp [Watched.start, ControllerDaemon.new, Follows]

/-- The audits of a run report the overdue controllers, and the daemon is faulted from the first
report on. -/
structure AuditsExact (events : List DaemonEvent) : Prop where
  exact : ∀ mark ∈ (watchedMachine.run .start events).2, mark.Exact
  faulted : ∀ before, before <+: events →
    FaultedByAudit (watchedMachine.run .start before).1 (watchedMachine.run .start before).2
  stays : ∀ before, before <+: events →
    (watchedMachine.run .start before).1.daemon.state = .faulted →
    (watchedMachine.run .start events).1.daemon.state = .faulted

/-- Audits are exact in exactly the runs that meet no overdue controller seen at time 0. -/
theorem auditsExact_iff (events : List DaemonEvent) :
    AuditsExact events ↔ watchedMachine.Along SeenAfterZero .start events := by
  have hexact := Machine.forall_output_iff_along (M := watchedMachine) (I := Watched.Linked)
    (P := AuditMark.Exact) (A := fun _ _ => True) (C := SeenAfterZero)
    (fun s event h _ => linked_step h event) (fun s event h _ => exact_iff_seenAfterZero h event)
    linked_start (Machine.along_of_forall (fun _ _ => trivial) events)
  rw [← hexact]
  refine ⟨AuditsExact.exact, ?_⟩
  intro h
  refine ⟨h, fun before _ => faultedByAudit_run before, ?_⟩
  rintro before ⟨later, rfl⟩ hfaulted
  obtain ⟨mark, hmark, hreported⟩ := (faultedByAudit_run before).mp hfaulted
  apply (faultedByAudit_run (before ++ later)).mpr
  rw [Machine.run_append]
  exact ⟨mark, List.mem_append_left _ hmark, hreported⟩

/-- A controller is seen at time 0 and never again, and no audit reports it. -/
theorem not_auditsExact_seen_at_zero : ¬ AuditsExact
    [.registerController "mcu1" 10, .recordHeartbeat "mcu1" 0, .auditHeartbeats 1000000] := by
  intro h
  have hexact := h.exact _ List.mem_cons_self "mcu1"
  have hmissed := hexact.mpr ⟨⟨10, some 0⟩, rfl, 0, rfl, by decide⟩
  revert hmissed
  decide +kernel

end Dryer.Daemon
