import AgentWorkbench.Session.Stdin
import Mathlib.Data.List.Basic

/-!
The standard input of a process, and an account of it. The account is kept from what happens alone:
the inputs that arrive while the process is attached and its forwarder runs, how many of them were
written, and where the forwarder stopped. The port is at any time what the account says, so inputs
are written in order, each once, and what is written is a part of what arrived, from its start.

To detach a process and to stop its forwarder are one step of the port. What a forwarder still
writes between the two it could as well have written before, as no input is taken any more
(`stop_undergoAll_release`).
-/
namespace AgentWorkbench

/-- What happens at the port of an attached process. A write counts when it ends: the input is
written, or the write failed or was stopped after so many octets. -/
inductive PortEvent where
  | input (text : String)
  | written
  | failed (octets : Nat)
  /-- The forwarder was stopped. -/
  | stopped (octets : Nat)
  deriving DecidableEq, Repr

/-- The octets of an input. -/
def PortEvent.input? : PortEvent → Option (List UInt8)
  | input text => some (Text.Utf8.encode text.toList)
  | _ => none

namespace StdinPort

/-- Stops the forwarder after so many octets of the next input; what is queued is lost. -/
def stop (p : StdinPort) (octets : Nat) : StdinPort :=
  { p.failWrite octets with forwarding := false, queue := [] }

/-- Detaches the process and leaves its forwarder running. -/
def release (p : StdinPort) : StdinPort := { p with attached := false }

def undergo (p : StdinPort) : PortEvent → StdinPort
  | .input text => p.accept text
  | .written => p.write
  | .failed octets => p.failWrite octets
  | .stopped octets => p.stop octets

def undergoAll (p : StdinPort) (events : List PortEvent) : StdinPort := events.foldl undergo p

theorem undergoAll_cons (p : StdinPort) (event : PortEvent) (rest : List PortEvent) :
    p.undergoAll (event :: rest) = (p.undergo event).undergoAll rest := rfl

theorem undergo_of_idle {p : StdinPort} (idle : p.forwarding = false) (empty : p.queue = [])
    (event : PortEvent) : p.undergo event = p := by
  obtain ⟨attached, forwarding, queue, written⟩ := p
  cases idle
  cases empty
  cases event with
  | input text => simp [undergo, accept, isOpen]
  | written | failed octets | stopped octets => rfl

theorem accept_of_isOpen {p : StdinPort} (isOpen : p.isOpen = true) (text : String) :
    p.accept text = { p with queue := p.queue ++ [Text.Utf8.encode text.toList] } :=
  if_pos isOpen

theorem write_of_queue {p : StdinPort} (runs : p.forwarding = true) {next : List UInt8}
    {rest : List (List UInt8)} (queue : p.queue = next :: rest) :
    p.write = { p with queue := rest, written := p.written ++ next } := by
  simp only [write, queue, runs, if_true]

theorem stop_of_forwarding {p : StdinPort} (runs : p.forwarding = true) (octets : Nat) :
    p.stop octets =
      { p with
        forwarding := false
        queue := []
        written := p.written ++ (p.queue.headD []).take octets } := by
  obtain ⟨attached, forwarding, queue, written⟩ := p
  cases runs
  cases queue <;> simp [stop, failWrite]

/-- A write that fails stops the forwarder. -/
theorem failWrite_of_queue {p : StdinPort} (runs : p.forwarding = true) (waits : p.queue ≠ [])
    (octets : Nat) : p.failWrite octets = p.stop octets := by
  obtain ⟨attached, forwarding, queue, written⟩ := p
  cases runs
  cases queue with
  | nil => contradiction
  | cons next rest => rfl

theorem release_undergo_input (p : StdinPort) (text : String) :
    p.release.undergo (.input text) = p.release := by
  simp [undergo, accept, isOpen, release]

theorem release_undergo (p : StdinPort) {event : PortEvent} (other : event.input? = none) :
    p.release.undergo event = (p.undergo event).release := by
  obtain ⟨attached, forwarding, queue, written⟩ := p
  cases event with
  | input text => contradiction
  | written | failed octets | stopped octets => cases queue <;> cases forwarding <;> rfl

theorem undergoAll_release (p : StdinPort) (events : List PortEvent) :
    p.release.undergoAll events = (p.undergoAll (events.filter (·.input?.isNone))).release := by
  induction events generalizing p with
  | nil => rfl
  | cons event rest ih =>
      rw [undergoAll_cons]
      cases event with
      | input text =>
          rw [release_undergo_input]
          exact ih p
      | written | failed octets | stopped octets =>
          rw [release_undergo p rfl]
          exact ih _

theorem release_stop (p : StdinPort) (octets : Nat) :
    (p.stop octets).release = (p.stop octets).detach := rfl

/-- A process is detached, its forwarder goes on for a while and is stopped then: the port is as if
the forwarder had done the same before, and process and forwarder had gone together. -/
theorem stop_undergoAll_release (p : StdinPort) (events : List PortEvent) (octets : Nat) :
    (p.release.undergoAll events).stop octets =
      ((p.undergoAll (events.filter (·.input?.isNone))).stop octets).detach := by
  have later : PortEvent.input? (.stopped octets) = none := rfl
  rw [undergoAll_release, ← release_stop]
  exact release_undergo _ later

end StdinPort

/-- The inputs of a session, by what happens while its process is attached. -/
structure Delivery where
  /-- The inputs that arrived while the forwarder ran, in order. -/
  taken : List (List UInt8) := []
  /-- How many of them were written. -/
  whole : Nat := 0
  /-- The forwarder stopped after so many octets of the next input. -/
  stopped : Option Nat := none
  whole_le : whole ≤ taken.length := by exact Nat.zero_le _

namespace Delivery

def waiting (d : Delivery) : List (List UInt8) := d.taken.drop d.whole

/-- What the forwarder wrote of the next input before it stopped. -/
def part (d : Delivery) : List UInt8 :=
  match d.stopped with
  | none => []
  | some octets => (d.waiting.headD []).take octets

def octets (d : Delivery) : List UInt8 := (d.taken.take d.whole).flatten ++ d.part

def take (d : Delivery) (input : List UInt8) : Delivery :=
  { d with
    taken := d.taken ++ [input]
    whole_le := by simpa using Nat.le_succ_of_le d.whole_le }

/-- What happens to an attached process whose forwarder runs. -/
def undergo (d : Delivery) : PortEvent → Delivery
  | .input text => d.take (Text.Utf8.encode text.toList)
  | .written =>
    if left : d.whole < d.taken.length then { d with whole := d.whole + 1, whole_le := left } else d
  | .failed octets => if d.whole < d.taken.length then { d with stopped := some octets } else d
  | .stopped octets => { d with stopped := some octets }

/-- The port of a process, attached or not, with this account. -/
def port (d : Delivery) (attached : Bool) : StdinPort where
  attached
  forwarding := attached && d.stopped.isNone
  queue := if attached && d.stopped.isNone then d.waiting else []
  written := d.octets

theorem isOpen_port (d : Delivery) (attached : Bool) :
    (d.port attached).isOpen = (attached && d.stopped.isNone) := by
  cases attached <;> rfl

theorem waiting_eq_nil_iff (d : Delivery) : d.waiting = [] ↔ ¬ d.whole < d.taken.length := by
  rw [waiting, List.drop_eq_nil_iff, Nat.not_lt]

theorem waiting_ne_nil_iff (d : Delivery) : d.waiting ≠ [] ↔ d.whole < d.taken.length := by
  rw [ne_eq, waiting_eq_nil_iff, not_not]

/-- The next input becomes the last that was written. -/
theorem take_succ_of_waiting {d : Delivery} {next : List UInt8} {rest : List (List UInt8)}
    (waits : d.waiting = next :: rest) :
    d.taken.take (d.whole + 1) = d.taken.take d.whole ++ [next] ∧
      d.taken.drop (d.whole + 1) = rest := by
  rw [waiting] at waits
  constructor
  · rw [List.take_add, waits]
    rfl
  · rw [← List.drop_drop, waits]
    rfl

theorem flatten_taken (d : Delivery) :
    (d.taken.take d.whole).flatten ++ d.waiting.flatten = d.taken.flatten := by
  rw [waiting, ← List.flatten_append, List.take_append_drop]

theorem part_isPrefix (d : Delivery) : d.part <+: d.waiting.flatten := by
  rw [part]
  split
  · exact List.nil_prefix
  · cases d.waiting with
    | nil => simp
    | cons next rest => exact (List.take_prefix _ next).trans (List.prefix_append next _)

/-- What is written is the first of what was taken. -/
theorem octets_isPrefix (d : Delivery) : d.octets <+: d.taken.flatten := by
  rw [octets, ← d.flatten_taken, List.prefix_append_right_inj]
  exact d.part_isPrefix

section

variable {d : Delivery} {attached : Bool}

/-- The port of an attached process whose forwarder runs. -/
theorem port_of_running (runs : d.stopped = none) :
    d.port true =
      { attached := true, forwarding := true, queue := d.waiting
        written := (d.taken.take d.whole).flatten } := by
  simp [port, octets, part, runs]

theorem port_of_stopped {octets : Nat} (stopped : d.stopped = some octets) :
    d.port attached =
      { attached
        written := (d.taken.take d.whole).flatten ++ (d.waiting.headD []).take octets } := by
  simp [port, Delivery.octets, part, stopped]

theorem stop_port (runs : d.stopped = none) (octets : Nat) :
    (d.port true).stop octets = { d with stopped := some octets : Delivery }.port true := by
  have stops : { d with stopped := some octets : Delivery }.stopped = some octets := rfl
  rw [port_of_running runs, StdinPort.stop_of_forwarding rfl, port_of_stopped stops]
  rfl

theorem taken_undergo (d : Delivery) (event : PortEvent) :
    (d.undergo event).taken = d.taken ++ event.input?.toList := by
  cases event with
  | input text => rfl
  | written | failed octets =>
      rw [undergo]
      split <;> exact (List.append_nil _).symm
  | stopped octets => exact (List.append_nil _).symm

theorem port_undergo (runs : d.stopped = none) (event : PortEvent) :
    (d.port true).undergo event = (d.undergo event).port true := by
  cases event with
  | input text =>
      have still_runs : (d.undergo (.input text)).stopped = none := runs
      rw [port_of_running runs, port_of_running still_runs, StdinPort.undergo,
        StdinPort.accept_of_isOpen rfl]
      simp only [undergo, take, waiting, List.take_append_of_le_length d.whole_le,
        List.drop_append_of_le_length d.whole_le]
  | written =>
      cases waits : d.waiting with
      | nil =>
          have done := d.waiting_eq_nil_iff.mp waits
          rw [undergo, dif_neg done, port_of_running runs, waits]
          rfl
      | cons next rest =>
          have left : d.whole < d.taken.length := d.waiting_ne_nil_iff.mp (by simp [waits])
          have still_runs :
              { d with whole := d.whole + 1, whole_le := left : Delivery }.stopped = none := runs
          obtain ⟨written, waiting⟩ := take_succ_of_waiting waits
          rw [undergo, dif_pos left, port_of_running runs, port_of_running still_runs,
            StdinPort.undergo, StdinPort.write_of_queue rfl waits]
          simp [written, ← waiting, Delivery.waiting]
  | failed octets =>
      by_cases left : d.whole < d.taken.length
      · rw [undergo, if_pos left, ← stop_port runs, StdinPort.undergo]
        refine StdinPort.failWrite_of_queue ?_ ?_ octets
        · rw [port_of_running runs]
        · rw [port_of_running runs]
          exact d.waiting_ne_nil_iff.mpr left
      · rw [undergo, if_neg left, port_of_running runs, d.waiting_eq_nil_iff.mpr left]
        rfl
  | stopped octets => exact stop_port runs octets

/-- Without a process, or after its forwarder stopped, nothing changes a port. -/
theorem port_undergo_of_closed (closed : (attached && d.stopped.isNone) = false)
    (event : PortEvent) : (d.port attached).undergo event = d.port attached :=
  StdinPort.undergo_of_idle closed (by simp [port, closed]) event

end

end Delivery

end AgentWorkbench
