import RobotMotion.Proofs.Program.Rejections
import RobotMotion.Proofs.Wire.Drain

/-!
# Programs and streams agree

What waits at a cursor can be realized ahead of time, as a program, or live, as a
stream. A program is written from a rehearsal, a stream comes from the cursor
itself. `Protocol.realizations_agree` says that both go through the same devices
and reject the same actions, at every cursor that can come about.
-/

namespace RobotMotion

open Program (Part Entry)

/-- The line of an entry that reports an action as rejected. -/
theorem Program.Look.entryLines_of_rejected (look : Look) {entry : Entry String}
    {action : Action Float} (h : entry.rejected? = some action) :
    look.entryLines id entry =
      [look.indented
        (look.comment ++ (" ERROR: could not apply " ++ action.command.instruction))] := by
  cases entry with
  | diagnostic a what =>
    cases what with
    | failed =>
      obtain rfl := Option.some.inj h
      rfl
    | unsupported => cases h
    | error message => cases h
  | code a statements => cases h
  | plain statement => cases h
  | blank => cases h

namespace Wire.Protocol

/-- The calls that did not apply are those of the rejected visits. -/
theorem rejected_delivery (p : Protocol) (visits : List (Visit Float)) :
    ((visits.map p.delivery).filter (!·.applied)).map Delivery.action =
      visits.flatMap Visit.rejected := by
  rw [Visit.flatMap_rejected, List.filter_map, List.map_map]
  rfl

/-- **Streaming a cursor until nothing waits goes through what a rehearsal of it
foretells.** At every reachable cursor:

* the calls release the rehearsed actions in order, with the same outcomes and the
  same devices after each, and the messages are those of the outcomes;
* a rehearsal of the block foretells the first calls, as many as the block is long;
* in every dialect, a program reports as rejected exactly the actions whose calls did
  not apply, in their order, each in a line that says so. -/
theorem realizations_agree (p : Protocol) {f : Fleet Float} (hf : f.Reachable) {i : Nat}
    {c : Cursor Float} (hc : f.cursor? i = some c) :
    let calls := (p.drain f i).1
    calls = (c.visits false).map p.delivery ∧
    p.stream? (p.drain f i).2 i = none ∧
    calls.take c.queue.blocked = (c.visits true).map p.delivery ∧
    ∀ (dialect : Dialect) (d : Decimals) (time name : String) (options : ProgramOptions),
      let parts := dialect.parts d time name options c
      let written := if options.blockOnly then calls.take c.queue.blocked else calls
      (dialect.program d time name options c).lines = parts.flatMap Part.lines ∧
      parts.flatMap (Program.rejected ·.entries) =
        (written.filter (!·.applied)).map Delivery.action ∧
      ∀ part ∈ parts, ∀ entry ∈ part.entries, ∀ action, entry.rejected? = some action →
        part.look.entryLines id entry =
          [part.look.indented
            (dialect.comment ++ (" ERROR: could not apply " ++ action.command.instruction))] := by
  intro calls
  have hinc := hf.increasing hc
  obtain ⟨hvisits, hend⟩ := drain_eq (p := p) hc
  have hall : calls = (c.visits false).map p.delivery := by
    rw [Cursor.visits_eq hinc]
    exact hvisits
  have hblock : calls.take c.queue.blocked = (c.visits true).map p.delivery := by
    rw [hall, Cursor.visits_block hinc, List.map_take]
  refine ⟨hall, hend, hblock, ?_⟩
  intro dialect d time name options parts written
  have hwritten : written = (c.visits options.blockOnly).map p.delivery := by
    cases hb : options.blockOnly with
    | false => simp only [written, hb, Bool.false_eq_true, if_false, hall]
    | true => simp only [written, hb, if_true, hblock]
  refine ⟨dialect.lines_program d time name options c, ?_, ?_⟩
  · rw [hwritten, rejected_delivery]
    exact dialect.rejected_parts d time name options c
  · intro part hpart entry _ action ha
    rw [part.look.entryLines_of_rejected ha, Dialect.comment_of_mem_parts hpart]

/-- Requests that leave three actions waiting, two of them in the block, of which the
second finds no settings put aside. -/
def rejectedWithinBlock : List (Fleet.Operation Float) :=
  [.add "write" false none [], .add "user" false (some 0) [],
    .start 1 .origin .standard,
    .issue 1 ⟨1, .wait 5⟩, .issue 1 ⟨2, .popSettings⟩, .onQueue 1 .freeze,
    .issue 1 ⟨3, .pushSettings⟩]

/-- The second call does not apply, and the module of the block says so. -/
theorem realizations_agree_rejectedWithinBlock :
    ∃ c, (Fleet.empty.run rejectedWithinBlock).cursor? 1 = some c ∧
      ((abb.drain (Fleet.empty.run rejectedWithinBlock) 1).1.map fun call =>
        (call.action.id, call.applied)) = [(1, true), (2, false), (3, true)] ∧
      (Dialect.rapid.parts .standard "" "" ⟨true, true, .none⟩ c).flatMap
        (Program.rejected ·.entries) = [⟨2, .popSettings⟩] := by
  have hvisits : ((Fleet.empty.run rejectedWithinBlock).cursor? 1).map (fun c =>
      ((c.visits false).map fun v => (v.action.id, v.applied), (c.visits true).flatMap
        Visit.rejected)) =
      some ([(1, true), (2, false), (3, true)], [⟨2, .popSettings⟩]) := by decide +kernel
  obtain ⟨c, hc, hcomputed⟩ := Option.map_eq_some_iff.mp hvisits
  obtain ⟨hall, hblock⟩ := Prod.mk.inj hcomputed
  obtain ⟨hcalls, -, hfirst, hprograms⟩ := realizations_agree abb ⟨_, rfl⟩ hc
  refine ⟨c, hc, ?_, ?_⟩
  · rw [hcalls, List.map_map]
    exact hall
  · rw [(hprograms .rapid .standard "" "" ⟨true, true, .none⟩).2.1, if_pos rfl, hfirst,
      rejected_delivery]
    exact hblock

end Wire.Protocol

end RobotMotion
