import RobotMotion.Proofs.Fleet.Run
import RobotMotion.Session

/-!
# Sites

A `Site` is a cell with the sessions on it and a record of what happened: the trace
of the cursors, and the actions that were given back on issuing. `Site.Call` is what
can be asked of the sessions. The record is written beside the cell and never read.

Callers promise two things (`Site.allows`): sessions draw from sources that exist,
and a session is not started over while actions wait at its write cursor.
-/

namespace RobotMotion

namespace Cell

/-- The trace of giving both cursors of a session their starting pose. -/
def startTrace (c : Cell) (s : Session) (pose : InitialPose Float) (settings : Settings Float) :
    List (Fleet.Event Float) :=
  c.fleet.startTrace s.user pose settings ++
    match c.fleet.start s.user pose settings with
    | .error _ => []
    | .ok fleet => fleet.startTrace s.write pose settings

/-- The action that a source makes of a command. -/
def nextAction (c : Cell) (source : Nat) (command : Command Float) : Action Float :=
  (c.stamp source command).1

/-- A source does not go back. -/
theorem lastId_le_stamp (c : Cell) (source other : Nat) (command : Command Float) :
    c.lastId other ≤ (c.stamp source command).2.lastId other := by
  simp only [lastId, stamp, List.getD_eq_getElem?_getD, List.getElem?_set]
  by_cases hs : source = other
  · subst hs
    by_cases hlt : source < c.sources.length
    · simp [hlt, IdSource.stamp, IdSource.next]
    · simp [hlt]
  · simp [hs]

/-- Once stamped, an action is not ahead of its source. -/
theorem lastId_stamp_self {c : Cell} {source : Nat} (h : source < c.sources.length)
    (command : Command Float) :
    (c.stamp source command).2.lastId source = c.lastId source + 1 := by
  simp [lastId, stamp, IdSource.stamp, IdSource.next, h]

end Cell

/-- A cell with its sessions, and a record of what happened there. -/
structure Site where
  cell : Cell
  sessions : List Session
  /-- what happened to the cursors -/
  trace : List (Fleet.Event Float)
  /-- the actions that were given back on issuing, with the number of the session -/
  returned : List (Nat × Action Float)

namespace Site

/-- Nothing open, and nothing happened. -/
def empty : Site := ⟨.empty, [], [], []⟩

/-- The actions that issuing to a session gave back, in order. -/
def returnedBy (s : Site) (k : Nat) : List (Action Float) :=
  (s.returned.filter (·.1 = k)).map Prod.snd

/-- What can be asked of the sessions, which are told apart by their numbers. -/
inductive Call where
  /-- make a source of identifiers -/
  | addSource
  /-- open a session that draws from a source -/
  | addSession (name : String) (source : Nat) (tools : List (Tool Float))
      (options : ProgramOptions)
  /-- give both cursors the same starting pose -/
  | start (k : Nat) (pose : InitialPose Float) (settings : Settings Float)
  /-- issue a command -/
  | issue (k : Nat) (command : Command Float)
  /-- write a program of what waits -/
  | compile (k : Nat) (dialect : Dialect) (time name : String) (options : ProgramOptions)
  /-- make what waits the block -/
  | setBlock (k : Nat)
  /-- ask for the next messages -/
  | stream (k : Nat) (p : Wire.Protocol)

/-- The site after a call. -/
def after (s : Site) : Call → Site
  | .addSource => { s with cell := s.cell.addSource.2 }
  | .addSession name source tools options =>
    let (session, cell) := s.cell.addSession name source tools options
    { s with
      cell
      sessions := s.sessions ++ [session]
      trace := s.trace ++
        [.added (.make (name ++ "-write") false none tools),
          .added (.make (name ++ "-user") true (some session.write) tools)] }
  | .start k pose settings =>
    match s.sessions[k]? with
    | none => s
    | some session =>
      match s.cell.start session pose settings with
      | .error _ => s
      | .ok cell => { s with cell, trace := s.trace ++ s.cell.startTrace session pose settings }
  | .issue k command =>
    match s.sessions[k]? with
    | none => s
    | some session =>
      let (answer, cell) := s.cell.issue session command
      { s with
        cell
        trace := s.trace ++
          s.cell.fleet.issueTrace session.user (s.cell.nextAction session.source command)
        returned := s.returned ++ answer.toList.map (k, ·) }
  | .compile .. => s
  | .setBlock k =>
    match s.sessions[k]? with
    | none => s
    | some session =>
      { s with
        cell := s.cell.setBlock session
        trace := s.trace ++ [.queued session.write .freeze] }
  | .stream k p =>
    match s.sessions[k]? with
    | none => s
    | some session =>
      match s.cell.stream? session p with
      | none => s
      | some (_, cell) => { s with cell, trace := s.trace ++ s.cell.fleet.nextTrace session.write }

/-- Whether actions wait at the write cursor of a session. -/
def isWaiting (s : Site) (k : Nat) : Bool :=
  match s.sessions[k]? with
  | none => false
  | some session =>
    match s.cell.fleet.cursor? session.write with
    | none => false
    | some write => !write.queue.pending.isEmpty

/-- What callers promise about a call. -/
def allows (s : Site) : Call → Bool
  | .addSession _ source _ _ => source < s.cell.sources.length
  | .start k _ _ => !s.isWaiting k
  | _ => true

/-- The site after a call that keeps the promise. -/
def step? (s : Site) (call : Call) : Option Site :=
  if s.allows call then some (s.after call) else none

/-- The sites that come about when every call keeps the promise. -/
def Reachable (s : Site) : Prop := ∃ calls : List Call, calls.foldlM step? empty = some s

/-- What holds of the empty site and is kept by allowed calls holds of every site that
comes about. -/
theorem Reachable.induction {P : Site → Prop} (hempty : P empty)
    (hstep : ∀ s call, P s → s.allows call = true → P (s.after call)) {s : Site}
    (h : s.Reachable) : P s := by
  obtain ⟨calls, hcalls⟩ := h
  -- the calls have to start anywhere for the induction to go through
  suffices ∀ first : Site, P first → calls.foldlM step? first = some s → P s from
    this empty hempty hcalls
  clear hcalls
  induction calls with
  | nil =>
    intro first hfirst hs
    obtain rfl := Option.some.inj hs
    exact hfirst
  | cons call rest ih =>
    intro first hfirst hs
    rw [List.foldlM_cons, Option.bind_eq_bind, Option.bind_eq_some_iff] at hs
    obtain ⟨next, hnext, hrest⟩ := hs
    rw [step?] at hnext
    split at hnext
    · rename_i hallowed
      obtain rfl := Option.some.inj hnext
      exact ih _ (hstep first call hfirst hallowed) hrest
    · cases hnext

end Site

end RobotMotion
