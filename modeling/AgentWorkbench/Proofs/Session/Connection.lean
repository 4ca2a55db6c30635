import AgentWorkbench.Proofs.Session.Effects
import AgentWorkbench.Proofs.Session.Stdin

/-!
A client's connection. It takes texts from the client, the session that it started moves, and the
forwarder writes and may be aborted; the three go on in any order. The first well-formed start among
the texts starts the one session of the connection. Its process is attached while the session
drains; the inputs that arrive then, while the forwarder runs, are written in order, and no other
text has any effect.

A forwarder that is aborted because its process was detached is aborted one event earlier here,
which leaves the port as it is in the end (`StdinPort.stop_undergoAll_release`).
-/
namespace AgentWorkbench

/-- Where a session stands to its process. -/
inductive Attachment where
  | ahead
  | attached
  | detached
  deriving DecidableEq, Repr

def Stage.attachment : Stage → Attachment
  | .opening | .loading | .publishing _ _ | .uploading _ | .launching _ => .ahead
  | .draining _ => .attached
  | .recording _ _ | .finished _ => .detached

inductive ConnectionEvent where
  /-- The connection takes a text from the client. -/
  | received (text : String)
  | moved (now : Int) (event : SessionEvent)
  /-- The forwarder is aborted after so many octets of the next input. -/
  | aborted (octets : Nat)

def SessionEvent.atPort? : SessionEvent → Option PortEvent
  | input text => some (.input text)
  | stdinWritten => some .written
  | stdinFailed octets => some (.failed octets)
  | _ => none

/-- What the event is for the standard input of the process. -/
def ConnectionEvent.atPort? : ConnectionEvent → Option PortEvent
  | received text =>
    match ClientMessage.parse? text with
    | some (.input text) => some (.input text)
    | _ => none
  | moved _ event => event.atPort?
  | aborted octets => some (.stopped octets)

def ConnectionEvent.input? (event : ConnectionEvent) : Option (List UInt8) :=
  event.atPort?.bind PortEvent.input?

namespace Session

/-- What a session is about. -/
def subject (s : Session) : SheetId × PlaygroundId := (s.sheet, s.playground)

def isAttached (s : Session) : Bool := s.stage.attachment = .attached

/-- What a step of a session other than at the port does to it. -/
inductive PortMove (s s' : Session) : Prop where
  | kept (stdin : s'.stdin = s.stdin) (stage : s'.stage.attachment = s.stage.attachment)
  | attached (ahead : s.stage.attachment = .ahead) (stdin : s'.stdin = s.stdin.attach)
      (stage : s'.stage.attachment = .attached)
  | detached (stdin : s'.stdin = s.stdin.detach) (stage : s'.stage.attachment = .detached)

section

variable {σ : Type} [SheetStore σ] (config : Config) (now : Int) (s : Session)

theorem PortMove.refl : PortMove s s := .kept rfl rfl

theorem portMove_fail (error : SessionError) : PortMove s (s.fail error) := .detached rfl rfl

theorem portMove_plan (ahead : s.stage.attachment = .ahead) (sheet : Sheet) :
    PortMove s (s.plan config sheet) := by
  rw [plan]
  split
  · exact portMove_fail s _
  · split <;> exact .kept rfl ahead.symm

theorem portMove_proceed (store : σ) : PortMove s (s.proceed config now store).1 := by
  cases stage : s.stage with
  | opening =>
      simp only [proceed, stage]
      exact .kept rfl (congrArg Stage.attachment stage).symm
  | loading =>
      simp only [proceed, stage]
      split
      · exact portMove_plan config s (congrArg Stage.attachment stage) _
      · exact portMove_fail s _
  | publishing plan graph =>
      simp only [proceed, stage]
      split <;> exact .kept rfl (congrArg Stage.attachment stage).symm
  | draining d =>
      simp only [proceed, stage]
      split
      · exact .detached rfl rfl
      · exact .refl s
  | recording record graphEmitted =>
      simp only [proceed, stage]
      exact .detached rfl rfl
  | uploading _ | launching _ | finished _ =>
      simp only [proceed, stage]
      exact .refl s

theorem portMove_setUp (outcome : Except SetupFailure Unit) :
    PortMove s (s.setUp config outcome) := by
  unfold setUp
  split
  · next stage => exact .kept rfl (congrArg Stage.attachment stage).symm
  · exact portMove_fail s _
  · exact portMove_fail s _
  · exact .refl s

theorem portMove_started (outcome : Except WorkerError Unit) : PortMove s (s.started outcome) := by
  unfold started
  split
  · next stage => exact .attached (congrArg Stage.attachment stage) rfl rfl
  · exact portMove_fail s _
  · exact .refl s

theorem portMove_modifyDrain (f : Drain → Drain) : PortMove s (s.modifyDrain f) := by
  rw [modifyDrain]
  split
  · next stage => exact .kept rfl (congrArg Stage.attachment stage).symm
  · exact .refl s

theorem portMove_deliver {d : Drain} (stage : s.stage = .draining d) (stream : OutputStream)
    (store : σ) : PortMove s (s.deliver d stream store).1 := by
  rw [deliver]
  split
  · exact .refl s
  all_goals exact .kept rfl (congrArg Stage.attachment stage).symm

theorem portMove_step {event : SessionEvent} (other : event.atPort? = none) (store : σ) :
    PortMove s (s.step config now event store).1 := by
  cases event with
  | proceed => exact portMove_proceed config now s store
  | setUp outcome => exact portMove_setUp config s outcome
  | started outcome => exact portMove_started s outcome
  | read stream octets | close stream => exact portMove_modifyDrain s _
  | deliver stream =>
      rw [step]
      split
      · next stage => exact portMove_deliver s stage stream store
      · exact .refl s
  | exited status => exact portMove_modifyDrain s _
  | input text | stdinWritten | stdinFailed octets => contradiction

theorem step_atPort {event : SessionEvent} {atPort : PortEvent} (h : event.atPort? = some atPort)
    (store : σ) :
    s.step config now event store = ({ s with stdin := s.stdin.undergo atPort }, store) := by
  cases event with
  | input text | stdinWritten | stdinFailed octets =>
      cases h
      rfl
  | proceed | setUp _ | started _ | read _ _ | close _ | deliver _ | exited _ => contradiction

end

end Session

/-- An event counts for the account while the process is attached and its forwarder runs. -/
def Delivery.record (d : Delivery) (s : Session) (event : PortEvent) : Delivery :=
  if s.isAttached && d.stopped.isNone then d.undergo event else d

/-- The port of a session is what the account says. -/
structure Session.Accounts (s : Session) (d : Delivery) : Prop where
  port : s.stdin = d.port s.isAttached
  fresh : s.stage.attachment = .ahead → d = {}

namespace Session.Accounts

variable {s s' : Session} {d : Delivery}

theorem start (sheet : SheetId) (playground : PlaygroundId) :
    Accounts { sheet, playground } {} where
  port := rfl
  fresh _ := rfl

theorem atPort (h : s.Accounts d) (event : PortEvent) :
    Accounts { s with stdin := s.stdin.undergo event } (d.record s event) := by
  rw [h.port, Delivery.record]
  split
  · next runs =>
      rw [Bool.and_eq_true, Option.isNone_iff_eq_none] at runs
      refine ⟨?_, fun ahead => ?_⟩
      · rw [runs.1]
        exact (d.port_undergo runs.2 event).trans (congrArg _ runs.1.symm)
      · have attached := of_decide_eq_true runs.1
        rw [show s.stage.attachment = .ahead from ahead] at attached
        contradiction
  · next closed =>
      rw [Bool.not_eq_true] at closed
      exact ⟨Delivery.port_undergo_of_closed closed event, h.fresh⟩

theorem of_portMove (h : s.Accounts d) (move : PortMove s s') : s'.Accounts d := by
  cases move with
  | kept stdin stage =>
      have same : s'.isAttached = s.isAttached := by rw [isAttached, isAttached, stage]
      exact ⟨by rw [stdin, h.port, same], by rw [stage]; exact h.fresh⟩
  | attached ahead stdin stage =>
      have fresh := h.fresh ahead
      have nothing : s.stdin = {} := by
        rw [h.port, fresh, isAttached, ahead]
        rfl
      refine ⟨?_, by simp [stage]⟩
      rw [stdin, nothing, fresh, isAttached, stage]
      rfl
  | detached stdin stage =>
      have apart : s'.isAttached = false := by
        rw [isAttached, stage]
        rfl
      refine ⟨?_, by simp [stage]⟩
      rw [stdin, h.port, apart]
      rfl

theorem isOpen_iff (h : s.Accounts d) :
    s.stdin.isOpen = true ↔ s.stage.attachment = .attached ∧ d.stopped = none := by
  rw [h.port, Delivery.isOpen_port, isAttached]
  simp

end Session.Accounts

namespace Terminal

variable {σ : Type} [SheetStore σ] (config : Config)

def step (t : Terminal) (event : ConnectionEvent) (store : σ) : Terminal × σ :=
  match event, t.session with
  | .received text, _ => (t.receive text, store)
  | .moved now event, some s =>
    let (s, store) := s.step config now event store
    ({ session := some s }, store)
  | .aborted octets, some s =>
    ({ session := some { s with stdin := s.stdin.stop octets } }, store)
  | _, none => (t, store)

def run (t : Terminal) : List ConnectionEvent → σ → Terminal × σ
  | [], store => (t, store)
  | event :: rest, store =>
    let (t, store) := t.step config event store
    run t rest store

theorem run_cons (t : Terminal) (event : ConnectionEvent) (rest : List ConnectionEvent)
    (store : σ) : t.run config (event :: rest) store =
      (t.step config event store).1.run config rest (t.step config event store).2 := rfl

/-- What the account becomes by an event. -/
def record (t : Terminal) (d : Delivery) (event : ConnectionEvent) : Delivery :=
  match t.session, event.atPort? with
  | some s, some event => d.record s event
  | _, _ => d

/-- The account after the events. -/
def delivery (t : Terminal) (d : Delivery) : List ConnectionEvent → σ → Delivery
  | [], _ => d
  | event :: rest, store =>
    let (after, store) := t.step config event store
    after.delivery (t.record d event) rest store

/-- The account of a connection, which is empty until its session starts. -/
def Accounts (t : Terminal) (d : Delivery) : Prop :=
  match t.session with
  | none => d = {}
  | some s => s.Accounts d

/-- A session after an event at its connection: it is about the same, and either the event is one at
the port or the port changes with the stage. -/
structure Goes (s : Session) (event : ConnectionEvent) (s' : Session) : Prop where
  subject : s'.subject = s.subject
  atPort : ∀ e, event.atPort? = some e → s' = { s with stdin := s.stdin.undergo e }
  portMove : event.atPort? = none → s.PortMove s'

section

variable {s s' : Session} {event : ConnectionEvent} {d : Delivery}

theorem Goes.of_atPort {e : PortEvent} (h : event.atPort? = some e) :
    Goes s event { s with stdin := s.stdin.undergo e } where
  subject := rfl
  atPort e' h' := by
    cases h.symm.trans h'
    rfl
  portMove none_of_it := by simp [h] at none_of_it

theorem Goes.refl (h : event.atPort? = none) : Goes s event s where
  subject := rfl
  atPort e h' := by simp [h] at h'
  portMove _ := .refl s

theorem Goes.accounts (h : Goes s event s') (accounts : s.Accounts d) :
    s'.Accounts (record { session := some s } d event) := by
  rw [record]
  cases at_port : event.atPort? with
  | none => exact accounts.of_portMove (h.portMove at_port)
  | some e =>
      rw [h.atPort e at_port]
      exact accounts.atPort e

end

theorem exists_receive (s : Session) (text : String) :
    ∃ s', receive { session := some s } text = { session := some s' } ∧
      Goes s (.received text) s' := by
  cases parsed : ClientMessage.parse? text with
  | none => exact ⟨s, by rw [receive, parsed], .refl (by rw [ConnectionEvent.atPort?, parsed])⟩
  | some message =>
      cases message with
      | start sheet playground =>
          exact ⟨s, by rw [receive, parsed]; rfl, .refl (by rw [ConnectionEvent.atPort?, parsed])⟩
      | input text =>
          exact ⟨_, by rw [receive, parsed]; rfl,
            .of_atPort (e := .input text) (by rw [ConnectionEvent.atPort?, parsed])⟩

theorem exists_step (s : Session) (event : ConnectionEvent) (store : σ) :
    ∃ s', (({ session := some s } : Terminal).step config event store).1 = { session := some s' } ∧
      Goes s event s' := by
  cases event with
  | received text => exact exists_receive s text
  | aborted octets => exact ⟨_, rfl, .of_atPort (e := .stopped octets) rfl⟩
  | moved now event =>
      obtain ⟨calls, messages, phases, h⟩ := Session.exists_stepSpec config now s event store
      refine ⟨(s.step config now event store).1, rfl, Prod.ext h.sheet h.playground, ?_, ?_⟩
      · intro e at_port
        rw [Session.step_atPort config now s at_port]
      · intro other
        exact Session.portMove_step config now s other store

theorem accounts_step {t : Terminal} {d : Delivery} (h : t.Accounts d) (event : ConnectionEvent)
    (store : σ) : (t.step config event store).1.Accounts (t.record d event) := by
  obtain ⟨_ | s⟩ := t
  · cases h
    cases event with
    | received text =>
        rw [step, receive]
        split
        · exact Session.Accounts.start _ _
        · rfl
        · rfl
    | moved now event | aborted octets => rfl
  · obtain ⟨s', after, goes⟩ := exists_step config s event store
    rw [after]
    exact goes.accounts h

theorem accounts_run {t : Terminal} {d : Delivery} (h : t.Accounts d)
    (events : List ConnectionEvent) (store : σ) :
    (t.run config events store).1.Accounts (t.delivery config d events store) := by
  induction events generalizing t d store with
  | nil => exact h
  | cons event rest ih => exact ih (accounts_step config h event store) _

/-- An event adds nothing to what was taken but its own input. -/
theorem taken_record_sublist (t : Terminal) (d : Delivery) (event : ConnectionEvent) :
    (t.record d event).taken.Sublist (d.taken ++ event.input?.toList) := by
  have kept : d.taken.Sublist (d.taken ++ event.input?.toList) := List.sublist_append_left ..
  rw [record]
  split
  · next s e _ at_port =>
      rw [Delivery.record]
      split
      · rw [Delivery.taken_undergo, ConnectionEvent.input?, at_port]
        exact .refl _
      · exact kept
  · exact kept

theorem taken_delivery_sublist (t : Terminal) (d : Delivery) (events : List ConnectionEvent)
    (store : σ) :
    (t.delivery config d events store).taken.Sublist
      (d.taken ++ events.filterMap ConnectionEvent.input?) := by
  induction events generalizing t d store with
  | nil => exact List.sublist_append_left ..
  | cons event rest ih =>
      have inputs : (event :: rest).filterMap ConnectionEvent.input? =
          event.input?.toList ++ rest.filterMap ConnectionEvent.input? := by
        cases input : event.input? <;> simp [input]
      rw [inputs, ← List.append_assoc]
      exact (ih _ _ _).trans ((taken_record_sublist t d event).append_right _)

theorem run_subject (s : Session) (events : List ConnectionEvent) (store : σ) :
    (({ session := some s } : Terminal).run config events store).1.session.map Session.subject =
      some s.subject := by
  induction events generalizing s store with
  | nil => rfl
  | cons event rest ih =>
      obtain ⟨s', after, goes⟩ := exists_step config s event store
      rw [run_cons, after, ← goes.subject]
      exact ih s' _

/-- The session of the first well-formed start among the events, and what comes after it. -/
def firstStart? : List ConnectionEvent → Option (Session × List ConnectionEvent)
  | [] => none
  | .received text :: rest =>
    match ClientMessage.parse? text with
    | some (.start sheet playground) => some ({ sheet, playground }, rest)
    | _ => firstStart? rest
  | _ :: rest => firstStart? rest

/-- Nothing happens before the first start. -/
theorem run_eq_of_firstStart? (events : List ConnectionEvent) (store : σ) :
    ({} : Terminal).run config events store =
      match firstStart? events with
      | none => ({}, store)
      | some (s, later) => ({ session := some s } : Terminal).run config later store := by
  induction events with
  | nil => rfl
  | cons event rest ih =>
      cases event with
      | moved now event | aborted octets => exact ih
      | received text =>
          rw [run, step, receive, firstStart?]
          cases ClientMessage.parse? text with
          | none => exact ih
          | some message =>
              cases message with
              | start sheet playground => rfl
              | input text => exact ih

theorem accounts_iff {t : Terminal} {d : Delivery} {s : Session} (session : t.session = some s) :
    t.Accounts d ↔ s.Accounts d := by
  rw [Accounts, session]

/-- A text that has an effect: the first start, and an input while the process is attached and its
forwarder runs. -/
def Heeds (t : Terminal) (d : Delivery) (text : String) : Prop :=
  match ClientMessage.parse? text with
  | some (.start _ _) => t.session = none
  | some (.input _) => ∃ s, t.session = some s ∧ s.stage.attachment = .attached ∧ d.stopped = none
  | none => False

theorem receive_of_not_heeds {t : Terminal} {d : Delivery} (h : t.Accounts d) {text : String}
    (unheeded : ¬ t.Heeds d text) : t.receive text = t := by
  cases parsed : ClientMessage.parse? text with
  | none => rw [receive, parsed]
  | some message =>
      rw [Heeds, parsed] at unheeded
      rw [receive, parsed]
      cases message with
      | start sheet playground =>
          obtain ⟨_ | s⟩ := t
          · exact absurd rfl unheeded
          · rfl
      | input text =>
          obtain ⟨_ | s⟩ := t
          · rfl
          · have closed : s.stdin.isOpen = false := by
              rw [Bool.eq_false_iff, ne_eq, Session.Accounts.isOpen_iff h]
              exact fun takes => unheeded ⟨s, rfl, takes⟩
            simp [StdinPort.accept, closed]

end Terminal

/-- What the port of a session has done with the inputs of its account: it is open exactly while the
process is attached and its forwarder runs, all that arrived then is written or queued, and what is
written is the first of it, in whole inputs unless the forwarder stopped. -/
structure Session.Delivers (s : Session) (d : Delivery) : Prop where
  attached_iff : s.stdin.attached = true ↔ s.stage.attachment = .attached
  isOpen_iff : s.stdin.isOpen = true ↔ s.stage.attachment = .attached ∧ d.stopped = none
  written : s.stdin.written = (d.taken.take d.whole).flatten ++ d.part
  queue : s.stdin.queue = if s.stdin.isOpen then d.taken.drop d.whole else []
  complete : s.stdin.isOpen = true → s.stdin.written ++ s.stdin.queue.flatten = d.taken.flatten
  in_order : s.stdin.written <+: d.taken.flatten
  whole : d.stopped = none → s.stdin.written = (d.taken.take d.whole).flatten

theorem Session.Accounts.delivers {s : Session} {d : Delivery} (h : s.Accounts d) :
    s.Delivers d := by
  have written : s.stdin.written = (d.taken.take d.whole).flatten ++ d.part := by
    rw [h.port]
    rfl
  have queue : s.stdin.queue = if s.stdin.isOpen then d.waiting else [] := by
    rw [h.port, Delivery.isOpen_port]
    rfl
  have whole (runs : d.stopped = none) : s.stdin.written = (d.taken.take d.whole).flatten := by
    rw [written, Delivery.part, runs, List.append_nil]
  have attached_iff : s.stdin.attached = true ↔ s.stage.attachment = .attached := by
    rw [h.port]
    exact decide_eq_true_iff
  have in_order : s.stdin.written <+: d.taken.flatten := written ▸ d.octets_isPrefix
  refine ⟨attached_iff, h.isOpen_iff, written, queue, fun isOpen => ?_, in_order, whole⟩
  rw [whole (h.isOpen_iff.mp isOpen).2, queue, if_pos isOpen, d.flatten_taken]

/-- The events of a connection in any order. Its session is that of the first well-formed start, as
if nothing had come before; inputs go to its process in order while that is attached and its
forwarder runs, and no other text changes anything. -/
theorem Terminal.run_delivers {σ : Type} [SheetStore σ] (config : Config)
    (events : List ConnectionEvent) (store : σ) :
    let after := ({} : Terminal).run config events store
    let account := ({} : Terminal).delivery config {} events store
    (after = match firstStart? events with
      | none => ({}, store)
      | some (s, later) => ({ session := some s } : Terminal).run config later store) ∧
    after.1.session.map Session.subject = (firstStart? events).map (·.1.subject) ∧
    account.taken.Sublist (events.filterMap ConnectionEvent.input?) ∧
    (∀ s, after.1.session = some s → s.Delivers account) ∧
    ∀ text, ¬ after.1.Heeds account text →
      after.1.step config (.received text) after.2 = after := by
  intro after account
  have accounts : after.1.Accounts account :=
    accounts_run config (show ({} : Terminal).Accounts {} from rfl) events store
  have from_start : after = _ := run_eq_of_firstStart? config events store
  have taken := taken_delivery_sublist config {} {} events store
  refine ⟨from_start, ?_, taken, fun s session => ?_, fun text unheeded => ?_⟩
  · rw [from_start]
    cases firstStart? events with
    | none => rfl
    | some started => exact run_subject config started.1 started.2 store
  · exact ((accounts_iff session).mp accounts).delivers
  · exact Prod.ext (receive_of_not_heeds accounts unheeded) rfl

end AgentWorkbench
