import RobotMotion.Proofs.Program.Rejections
import RobotMotion.Proofs.Session.Simulation

/-!
# Sessions keep their word

What the relation between the two cursors of a session means for those who use it.
An action is given back exactly if it applied; the write cursor receives these actions
and no others; and an action that was given back is rejected neither by a stream nor by
a program, however far the write cursor is behind.
-/

namespace RobotMotion.Site

variable {s : Site} {k : Nat} {session : Session}

/-- The actions that were given back left the write cursor or wait there, in order. -/
theorem Inv.returned_eq (h : s.Inv) {user write : Cursor Float}
    (hp : s.Paired k session user write) :
    (s.history session).released ++ write.queue.pending = s.returnedBy k := by
  have hv : (s.history session).Valid := Queue.History.valid_run _
  have hkept := hv.kept
  rw [hp.discarded, hp.accepted, h.queue_history hp] at hkept
  rw [← hkept]
  exact List.filter_eq_self.mpr fun a _ => rfl

theorem increasing_returned {user write : Cursor Float}
    (hp : s.Paired k session user write) : (s.returnedBy k).Pairwise (·.id < ·.id) := by
  have hv : (s.history session).Valid := Queue.History.valid_run _
  rw [← hp.accepted]
  exact hv.increasing

theorem Inv.increasing_pending (h : s.Inv) {user write : Cursor Float}
    (hp : s.Paired k session user write) : write.queue.pending.Pairwise (·.id < ·.id) := by
  have hincreasing := increasing_returned hp
  rw [← h.returned_eq hp] at hincreasing
  exact (List.pairwise_append.mp hincreasing).2.1

/-- Nothing that waits at the write cursor will be rejected. -/
theorem Inv.applied_of_mem_visits (h : s.Inv) {user write : Cursor Float}
    (hp : s.Paired k session user write) (blockOnly : Bool) :
    ∀ v ∈ write.visits blockOnly, v.applied = true := by
  have hincreasing := h.increasing_pending hp
  have happlied := Device.applied_of_performAll hp.caughtUp
  intro v hv
  rw [Cursor.visits_eq hincreasing] at hv
  cases blockOnly with
  | false => exact happlied v hv
  | true =>
    rw [Queue.selection, if_pos rfl, Queue.block, Device.visits_take] at hv
    exact happlied v (List.mem_of_mem_take hv)

/-- Issuing tries the new action at the user cursor, and gives it back exactly if it
applied. -/
theorem Paired.issue_decides {user write : Cursor Float} (hp : s.Paired k session user write)
    (command : Command Float) :
    ∃ action after, action = s.cell.nextAction session.source command ∧
      (s.cell.issue session command).2.fleet.cursor? session.user = some after ∧
      after.queue.lastReleased = some action ∧
      (((s.cell.issue session command).1 = some action ∧
          user.device.perform command = .ok after.device) ∨
        ((s.cell.issue session command).1 = none ∧
          (user.device.perform command).isOk = false ∧ after.device = user.device)) := by
  obtain ⟨⟨queue, ha⟩, -⟩ := hp.exists_add? command
  set action := s.cell.nextAction session.source command with haction
  obtain ⟨rest, hparent, -, -, hreleased⟩ := hp.feeds.follow_parent ha
  have hafter := (Fleet.issue_steps s.cell.fleet session.user action).cursor? hp.feeds.parent
  have hanswer := hp.issue_fst command
  rw [← haction] at hanswer
  rw [hparent] at hafter
  refine ⟨action, _, rfl, hafter, hreleased, ?_⟩
  cases hv : (user.device.visit action).applied with
  | true =>
    rw [hv] at hanswer
    exact .inl ⟨hanswer, Device.perform_of_applied hv⟩
  | false =>
    rw [hv] at hanswer
    refine .inr ⟨hanswer, ?_, Device.visit_device_of_rejected hv⟩
    exact (user.device.visit_applied action).symm.trans hv

/-- **The write cursor of a session does what the user cursor did.** At every site that
comes about, for every session:

* issuing gives the action back exactly if this action applied at the user cursor, and
  leaves the user cursor as it was otherwise;
* what the write cursor ever accepted is what issuing gave back, in the order of the
  identifiers, and each of these actions was released by the write cursor or waits there;
* carrying out what waits takes the device of the write cursor to that of the user
  cursor, and nothing is rejected on the way;
* hence the write cursor never rejected an action and never will, in a stream, and no
  program reports a rejection. -/
theorem write_follows_user (hs : s.Reachable) (hk : s.sessions[k]? = some session) :
    ∃ user write, s.cell.fleet.cursor? session.user = some user ∧
      s.cell.fleet.cursor? session.write = some write ∧
      (∀ command, ∃ action after, action = s.cell.nextAction session.source command ∧
        (s.cell.issue session command).2.fleet.cursor? session.user = some after ∧
        after.queue.lastReleased = some action ∧
        (((s.cell.issue session command).1 = some action ∧
            user.device.perform command = .ok after.device) ∨
          ((s.cell.issue session command).1 = none ∧
            (user.device.perform command).isOk = false ∧ after.device = user.device))) ∧
      Fleet.Steps .empty s.trace s.cell.fleet ∧
      (s.history session).queue = write.queue ∧
      (s.history session).accepted = s.returnedBy k ∧
      (s.returnedBy k).Pairwise (·.id < ·.id) ∧
      (s.history session).released ++ write.queue.pending = s.returnedBy k ∧
      write.device.performAll write.queue.pending = .ok user.device ∧
      (∀ v, .tried session.write v ∈ s.trace → v.applied = true) ∧
      (∀ p : Wire.Protocol, ∀ call ∈ (p.drain s.cell.fleet session.write).1,
        call.applied = true) ∧
      ∀ (dialect : Dialect) (d : Decimals) (time name : String) (options : ProgramOptions),
        (dialect.program d time name options write).lines =
            (dialect.parts d time name options write).flatMap Program.Part.lines ∧
          (dialect.parts d time name options write).flatMap (Program.rejected ·.entries) = [] := by
  have h := hs.inv
  obtain ⟨user, write, hp⟩ := h.paired hk
  refine ⟨user, write, hp.feeds.parent, hp.feeds.child, ?_, h.steps, h.queue_history hp,
    hp.accepted, increasing_returned hp, h.returned_eq hp, hp.caughtUp, hp.applied, ?_, ?_⟩
  · exact hp.issue_decides
  · intro p call hcall
    rw [(Wire.Protocol.drain_eq hp.feeds.child).1] at hcall
    obtain ⟨v, hv, rfl⟩ := List.mem_map.mp hcall
    exact Device.applied_of_performAll hp.caughtUp v hv
  · intro dialect d time name options
    refine ⟨dialect.lines_program d time name options write, ?_⟩
    rw [dialect.rejected_parts, List.flatMap_eq_nil_iff]
    exact fun v hv => Visit.rejected_of_applied (h.applied_of_mem_visits hp _ v hv)

/-- Two sessions that share a source of identifiers. The first is started; it puts
settings aside, takes them back, streams one action, and takes settings back once too
often. The second is issued a command without having been started. -/
def sharedSource : List Call :=
  [.addSource, .addSession "left" 0 [] .standard, .addSession "right" 0 [] .standard,
    .start 0 .origin .standard,
    .issue 0 .pushSettings, .issue 1 (.wait 5), .issue 0 .popSettings, .stream 0 .abb,
    .issue 0 .popSettings, .setBlock 0, .issue 0 (.wait 7)]

/-- The identifiers 2 and 4 were used up by rejected commands. The write cursor of the
first session is two actions behind. -/
theorem write_follows_user_sharedSource :
    ∃ s session user write, sharedSource.foldlM step? empty = some s ∧
      s.sessions[0]? = some session ∧ s.cell.fleet.cursor? session.user = some user ∧
      s.cell.fleet.cursor? session.write = some write ∧
      (s.returnedBy 0).map Action.id = [1, 3, 5] ∧
      (s.history session).released.map Action.id ++ write.queue.pending.map Action.id =
        [1, 3, 5] ∧
      write.queue.pending.length = 2 ∧
      write.device.performAll write.queue.pending = .ok user.device := by
  have hrun : (sharedSource.foldlM step? empty).map (fun s =>
      (s.sessions.length, (s.returnedBy 0).map Action.id,
        (s.cell.fleet.cursor? 0).map (·.queue.pending.length))) =
      some (2, [1, 3, 5], some 2) := by decide +kernel
  obtain ⟨s, hs, hcomputed⟩ := Option.map_eq_some_iff.mp hrun
  simp only [Prod.mk.injEq] at hcomputed
  obtain ⟨hlength, hreturned, hpending⟩ := hcomputed
  have hreachable : s.Reachable := ⟨sharedSource, hs⟩
  obtain ⟨session, hsession⟩ : ∃ session, s.sessions[0]? = some session :=
    ⟨_, List.getElem?_eq_getElem (by omega)⟩
  obtain ⟨user, write, huser, hwrite, -, -, -, -, -, hall, hcaughtUp, -⟩ :=
    write_follows_user hreachable hsession
  refine ⟨s, session, user, write, hs, hsession, huser, hwrite, hreturned, ?_, ?_, hcaughtUp⟩
  · rw [← List.map_append, hall]
    exact hreturned
  · have hnumber : session.write = 0 := (hreachable.inv.numbered hsession).1
    rw [← hnumber, hwrite] at hpending
    exact Option.some.inj hpending

end RobotMotion.Site
