import Reckoner.Dialogue
import Reckoner.Proofs.Numerals
import Reckoner.Proofs.Submissions
/-!
# What a dialogue comes to

A dialogue keeps the last result as the text on its display and evaluates through the cache of its session.
`Machine` has neither: its last result is a number, and it evaluates every expression anew. `Shows` relates a
dialogue to the machine that it comes to; a line keeps them together (`Shows.respond`) and so does a whole
input (`Shows.ofLines`), so a session says what the machine says (`Session.ofInput_eq_run`).
-/

namespace Reckoner

/-! ## Commands -/

/-- The lines with a meaning of their own. -/
def Command.reserved : List (String × Command) :=
  [("", nothing), ("quit", quit), ("exit", quit), ("help", help), ("deg", setMode .degree), ("rad", setMode .radian),
    ("m+", press .add), ("m-", press .subtract), ("mc", press .clear), ("mr", press .read),
    ("history", showHistory), ("clear", clearHistory)]

/-- A line that is not reserved takes an entry of the history again or is an expression. -/
def Command.other (line : String) : Command :=
  if "recall".toList <+: line.toList then again ((Text.words line.toList)[1]?.map String.ofList) else expression line

/-- What a line asks for, whatever the order of the reserved lines. -/
def Command.meant (line : String) : Command := (reserved.lookup line).getD (other line)

theorem Command.ofLine_eq_meant (line : String) : ofLine line = meant line := by
  by_cases h : line ∈ reserved.map (·.1)
  · have hall : ∀ line ∈ reserved.map (·.1), ofLine line = meant line := by decide +kernel
    exact hall line h
  · have hlookup : reserved.lookup line = none := by
      rw [List.lookup_eq_none_iff]
      intro entry hentry
      rw [bne_iff_ne]
      rintro rfl
      exact h (List.mem_map_of_mem hentry)
    simp only [reserved, List.map_cons, List.map_nil, List.mem_cons, List.not_mem_nil, or_false, not_or] at h
    obtain ⟨hempty, hquit, hexit, hhelp, hdeg, hrad, hadd, hsubtract, hmc, hmr, hhistory, hclear⟩ := h
    have hkey : MemoryKey.named? line = none := by
      simp [MemoryKey.named?, MemoryKey.all, MemoryKey.name, Ne.symm hadd, Ne.symm hsubtract, Ne.symm hmc, Ne.symm hmr]
    have hends : ¬ (line = "quit" || line = "exit") = true := by simp [hquit, hexit]
    unfold ofLine meant
    rw [if_neg hempty, if_neg hends, if_neg hhelp, if_neg hdeg, if_neg hrad, hkey, hlookup]
    dsimp only
    rw [if_neg hhistory, if_neg hclear]
    simp only [List.isPrefixOf_iff_prefix, Option.getD_none, other]

/-! ## The machine -/

/-- A calculator with a mode, a last result, a memory and a history, the newest entry first. -/
structure Machine where
  mode : AngleMode
  last : Double
  memory : Double
  history : List (String × Double)

namespace Machine

/-- What comes of a line. -/
structure Turn where
  machine : Machine
  outputs : List String := []
  stops : Bool := false

/-- What comes of an input. -/
structure Outcome where
  machine : Machine
  outputs : List String
  reads : Nat

/-- The history, one entry a line. -/
def listing (m : Machine) : List String :=
  m.history.zipIdx.map fun ((expression, x), i) => toString i ++ ": " ++ expression ++ " = " ++ x.render

def expressionAt (m : Machine) (i : Int) : Except Fault String :=
  if h : 0 ≤ i ∧ i.toNat < m.history.length then .ok m.history[i.toNat].1
  else .error (.noHistoryEntry (.int i))

/-- The expression of the history entry that a position names. -/
def recalled (m : Machine) (position : Option String) : Except Fault String :=
  match position with
  | none => .error .noSecondWord
  | some word => do m.expressionAt (← Dialogue.readPosition word)

section
variable (partially : Bool) (size : Nat)

/-- An expression evaluated under the mode of the machine; what has a value enters the history. -/
def answer (m : Machine) (expression : String) : Turn :=
  match Reckoner.evaluate m.mode partially expression with
  | .ok x => {
      machine := { m with last := x.settled, history := ((expression, x) :: m.history).take size }
      outputs := [x.render] }
  | .error f => { machine := { m with last := .zero false }, outputs := [f.message] }

def perform (m : Machine) : Command → Turn
  | .nothing => { machine := m }
  | .quit => { machine := m, stops := true }
  | .help => { machine := m, outputs := [helpText] }
  | .setMode mode => { machine := { m with mode }, outputs := ["Angle mode: " ++ mode.name] }
  | .press .add => { machine := { m with memory := m.memory.add m.last } }
  | .press .subtract => { machine := { m with memory := m.memory.sub m.last } }
  | .press .clear => { machine := { m with memory := .zero false } }
  | .press .read => { machine := { m with last := m.memory.settled }, outputs := [m.memory.render] }
  | .showHistory => { machine := m, outputs := m.listing }
  | .clearHistory => { machine := { m with history := [] } }
  | .again position => match m.recalled position with
    | .ok expression => m.answer partially size expression
    | .error f => { machine := m, outputs := ["Error: " ++ f.message] }
  | .expression text => m.answer partially size text

def respond (m : Machine) (line : String) : Turn := m.perform partially size (.meant (Text.strip line))

/-- Every line is read, and so is the end of the input. -/
def run (m : Machine) : List String → Outcome
  | [] => ⟨m, [], 1⟩
  | line :: lines =>
    let turn := m.respond partially size line
    if turn.stops then ⟨turn.machine, turn.outputs, 1⟩
    else
      let outcome := turn.machine.run lines
      { outcome with outputs := turn.outputs ++ outcome.outputs, reads := outcome.reads + 1 }

end

end Machine

/-! ## Dialogues -/

/-- Neither the mode nor what is remembered has to do with the cache. -/
theorem Session.Faithful.update {s : Session} (hs : s.Faithful) (mode : AngleMode) (history : History String)
    (memory : Memory) : ({ s with mode, history, memory } : Session).Faithful := ⟨hs.boolean, hs.room, hs.cached⟩

namespace Dialogue

variable {partially : Bool} {size : Nat} {m : Machine} {d : Dialogue}

/-- The dialogue comes to the machine: its display shows the last result. -/
structure Shows (partially : Bool) (size : Nat) (m : Machine) (d : Dialogue) : Prop where
  faithful : d.session.Faithful
  flag : d.session.partially = .bool partially
  mode : d.session.mode = m.mode
  memory : d.session.memory = ⟨m.memory⟩
  history : d.session.history = ⟨.atMost size, m.history⟩
  last : Display.read d.display = .ok m.last

/-- A reply says what the turn says, and they go on together. -/
structure Says (partially : Bool) (size : Nat) (turn : Machine.Turn) (r : Reply) : Prop where
  shows : Shows partially size turn.machine r.dialogue
  outputs : r.outputs = turn.outputs
  ending : r.ending = if turn.stops then .quits else .goesOn

theorem Shows.submit (h : Shows partially size m d) (expression : String) :
    Says partially size (m.answer partially size expression) (d.submit expression) := by
  have hquery : (d.session.query expression).result = Reckoner.evaluate m.mode partially expression := by
    simp [Session.query, Query.result, h.mode, h.flag, Datum.isGiven]
  have hkeeps := h.faithful.keeps_evaluate expression
  have hfaithful := h.faithful.evaluate expression
  unfold Dialogue.submit Machine.answer
  rw [← hquery]
  rcases h.faithful.submits expression with ⟨x, hresult, hsubmit⟩ | ⟨e, hresult, hsubmit⟩
  · rw [hresult, hsubmit]
    refine ⟨⟨hfaithful.update _ _ _, ?_, ?_, ?_, ?_, ?_⟩, rfl, rfl⟩
    · exact hkeeps.partially.trans h.flag
    · exact hkeeps.mode.trans h.mode
    · exact hkeeps.memory.trans h.memory
    · show d.session.history.add expression x = _
      rw [h.history]
      rfl
    · exact Display.read_render x
  · rw [hresult, hsubmit]
    refine ⟨⟨hfaithful, ?_, ?_, ?_, ?_, ?_⟩, rfl, rfl⟩
    · exact hkeeps.partially.trans h.flag
    · exact hkeeps.mode.trans h.mode
    · exact hkeeps.memory.trans h.memory
    · exact hkeeps.history.trans h.history
    · exact Display.read_message e

theorem Shows.press (h : Shows partially size m d) (key : MemoryKey) :
    Says partially size (m.perform partially size (.press key)) (d.press key) := by
  have hmemory : d.session.memory.value = m.memory := by rw [h.memory]
  unfold Dialogue.press
  -- the display is read under every key, so only `last` keeps this from a fault
  rw [h.last]
  cases key with
  | add =>
    refine ⟨⟨h.faithful.update _ _ _, h.flag, h.mode, ?_, h.history, h.last⟩, rfl, rfl⟩
    show d.session.memory.add m.last = ⟨m.memory.add m.last⟩
    rw [Memory.add, hmemory]
  | subtract =>
    refine ⟨⟨h.faithful.update _ _ _, h.flag, h.mode, ?_, h.history, h.last⟩, rfl, rfl⟩
    show d.session.memory.subtract m.last = ⟨m.memory.sub m.last⟩
    rw [Memory.subtract, hmemory]
  | clear => exact ⟨⟨h.faithful.update _ _ _, h.flag, h.mode, rfl, h.history, h.last⟩, rfl, rfl⟩
  | read =>
    refine ⟨⟨h.faithful.update _ _ _, h.flag, h.mode, h.memory, h.history, ?_⟩, ?_, rfl⟩
    · show Display.read d.session.memory.value.render = .ok m.memory.settled
      rw [hmemory, Display.read_render]
    · show [d.session.memory.value.render] = [m.memory.render]
      rw [hmemory]

theorem Shows.expressionAt (h : Shows partially size m d) (i : Int) :
    d.session.history.expressionAtDatum (.int i) = m.expressionAt i := by
  simp only [h.history, History.expressionAtDatum, Datum.number?, Machine.expressionAt]
  by_cases hi : 0 ≤ i ∧ i.toNat < m.history.length
  · obtain ⟨n, rfl⟩ := Int.eq_ofNat_of_zero_le hi.1
    have hn : n < m.history.length := hi.2
    rw [dif_pos hi, History.expressionAt?_natCast, List.getElem?_eq_getElem hn]
    rfl
  · rw [dif_neg hi, History.expressionAt?_eq_none (by dsimp only; omega)]

theorem Shows.recalled (h : Shows partially size m d) (position : Option String) :
    Dialogue.recalled d.session position = m.recalled position := by
  cases position with
  | none => rfl
  | some word =>
    simp only [Dialogue.recalled, Machine.recalled]
    cases readPosition word with
    | error f => rfl
    | ok i => exact h.expressionAt i

theorem Shows.perform (h : Shows partially size m d) (c : Command) :
    Says partially size (m.perform partially size c) (d.perform c) := by
  cases c with
  | nothing => exact ⟨h, rfl, rfl⟩
  | quit => exact ⟨h, rfl, rfl⟩
  | help => exact ⟨h, rfl, rfl⟩
  | setMode mode => exact ⟨⟨h.faithful.update _ _ _, h.flag, rfl, h.memory, h.history, h.last⟩, rfl, rfl⟩
  | press key => exact h.press key
  | showHistory =>
    refine ⟨h, ?_, rfl⟩
    show historyLines d.session.history = m.listing
    rw [h.history, historyLines, Machine.listing, List.mapIdx_eq_zipIdx_map]
  | clearHistory =>
    refine ⟨⟨h.faithful.update _ _ _, h.flag, h.mode, h.memory, ?_, h.last⟩, rfl, rfl⟩
    show d.session.history.clear = _
    rw [h.history]
    rfl
  | again position =>
    simp only [Dialogue.perform, Machine.perform, h.recalled]
    cases m.recalled position with
    | ok expression => exact h.submit expression
    | error f => exact ⟨h, rfl, rfl⟩
  | expression text => exact h.submit text

theorem Shows.respond (h : Shows partially size m d) (line : String) :
    Says partially size (m.respond partially size line) (d.respond line) := by
  unfold Dialogue.respond Machine.respond
  rw [Command.ofLine_eq_meant]
  exact h.perform (.meant (Text.strip line))

end Dialogue

/-! ## Inputs -/

namespace Transcript

theorem outputs_prompted (t : Transcript) : t.prompted.outputs = t.outputs := by
  simp [outputs, prompted]

theorem reads_prompted (t : Transcript) : t.prompted.reads = t.reads + 1 := by
  simp [reads, prompted]

theorem outputs_after (r : Reply) (t : Transcript) : (after r t).outputs = r.outputs ++ t.outputs := by
  simp [outputs, after]

theorem reads_after (r : Reply) (t : Transcript) : (after r t).reads = t.reads := by
  have hnone : (r.outputs.map Utterance.output).count .prompt = 0 := by
    rw [List.count_eq_zero]
    simp
  simp [reads, after, hnone]

/-- The transcript says what the machine says, and ends where the machine ends. -/
structure Tells (o : Machine.Outcome) (t : Transcript) : Prop where
  fault : t.fault = none
  outputs : t.outputs = o.outputs
  reads : t.reads = o.reads
  mode : t.session.mode = o.machine.mode
  memory : t.session.memory.value = o.machine.memory
  history : t.session.history.entries = o.machine.history

theorem Tells.prompted {o : Machine.Outcome} {t : Transcript} (h : t.Tells o) :
    t.prompted.Tells { o with reads := o.reads + 1 } where
  fault := h.fault
  outputs := by rw [outputs_prompted, h.outputs]
  reads := by rw [reads_prompted, h.reads]
  mode := h.mode
  memory := h.memory
  history := h.history

theorem Tells.after {o : Machine.Outcome} {t : Transcript} (h : t.Tells o) (r : Reply) :
    (after r t).Tells { o with outputs := r.outputs ++ o.outputs } where
  fault := h.fault
  outputs := by rw [outputs_after, h.outputs]
  reads := by rw [reads_after, h.reads]
  mode := h.mode
  memory := h.memory
  history := h.history

end Transcript

namespace Dialogue

variable {partially : Bool} {size : Nat} {m : Machine} {d : Dialogue}

theorem Shows.ended (h : Shows partially size m d) : (Transcript.ended d.session none).Tells ⟨m, [], 0⟩ where
  fault := rfl
  outputs := rfl
  reads := rfl
  mode := h.mode
  memory := by
    show d.session.memory.value = m.memory
    rw [h.memory]
  history := by
    show d.session.history.entries = m.history
    rw [h.history]

/-- A dialogue tells what the machine that it comes to makes of the input. -/
theorem Shows.ofLines (h : Shows partially size m d) (lines : List String) :
    (Transcript.ofLines d lines).Tells (m.run partially size lines) := by
  induction lines generalizing m d with
  | nil => exact h.ended.prompted
  | cons line lines ih =>
    obtain ⟨hshows, houtputs, hending⟩ := h.respond line
    rw [Transcript.ofLines, Machine.run]
    dsimp only
    -- both stop at the same line, and what was said up to there is the same
    by_cases hstops : (m.respond partially size line).stops
    · rw [if_pos hstops] at hending ⊢
      rw [hending, ← houtputs, ← List.append_nil (d.respond line).outputs]
      exact (hshows.ended.after (d.respond line)).prompted
    · rw [if_neg hstops] at hending ⊢
      rw [hending, ← houtputs]
      exact ((ih hshows).after (d.respond line)).prompted

end Dialogue

namespace Session

/-- The machine that a session is when a dialogue begins. -/
def machine (s : Session) : Machine := ⟨s.mode, .zero false, s.memory.value, s.history.entries⟩

/-- After any operations a dialogue over any input ends without a fault and says what the machine without a
cache and without a display says, and leaves the session in the mode, with the memory and with the history of
the machine. -/
theorem ofInput_eq_run {mode cacheSize : Datum} {partially : Bool} {n : Nat} {s₀ : Session}
    (h : create mode (.int n) cacheSize (.bool partially) = .ok s₀) (hsize : cacheSize.IsNonnegative)
    (ops : List Operation) (lines : List String) :
    let s := s₀.run ops
    ∃ b, s.partially = .bool b ∧
      let t := Transcript.ofInput s lines
      let o := s.machine.run b n lines
      t.fault = none ∧
      t.outputs = ("Angle mode: " ++ s.mode.name ++ ". Type 'help' for commands.") :: o.outputs ∧
      t.reads = o.reads ∧ t.session.mode = o.machine.mode ∧ t.session.memory.value = o.machine.memory ∧
      t.session.history.entries = o.machine.history := by
  intro s
  have hs : Remembers n (s₀.submissions ops) s := (remembers_create h hsize).run ops
  obtain ⟨b, hb⟩ := hs.faithful.boolean
  have hshows : Dialogue.Shows b n s.machine (.start s) := by
    refine ⟨hs.faithful, hb, rfl, rfl, ?_, rfl⟩
    show s.history = ⟨.atMost n, s.history.entries⟩
    rw [hs.history]
  have htells := hshows.ofLines lines
  refine ⟨b, hb, htells.fault, ?_, ?_, htells.mode, htells.memory, htells.history⟩
  · rw [← htells.outputs]
    rfl
  · rw [← htells.reads]
    simp [Transcript.ofInput, Transcript.reads]

/-- The display is read by `m+`, an entry is taken again, and three lines are refused. -/
theorem ofInput_eq_run_of_memory :
    ∃ s₀, create (.text "radian") (.int (2 : Nat)) (.int 1) (.bool false) = .ok s₀ ∧
      Datum.IsNonnegative (.int 1) ∧
      let t := Transcript.ofInput (s₀.run [.submit "1+1", .toggleMode, .setPartially false])
        ["m+", " 2*3 ", "m+", "recall 1", "mr", "recall x", "recalled -1", "2*", "quit", "9"]
      t.fault = none ∧ t.reads = 9 ∧ t.outputs =
        ["Angle mode: degree. Type 'help' for commands.", "6.0", "2.0", "6.0",
          "Error: invalid literal for int() with base 10: 'x'", "Error: No history entry at position -1",
          "Insufficient operands for *"] := by
  let s₀ : Session := ⟨.radian, .bool false, .ofBound (.atMost 2), .empty, .bound (.atMost 1), [], 0, 0⟩
  have hcreate : create (.text "radian") (.int (2 : Nat)) (.int 1) (.bool false) = .ok s₀ := rfl
  have hsize : Datum.IsNonnegative (.int 1) := ⟨.int 1, 1, rfl, rfl, by decide⟩
  obtain ⟨b, hb, hfault, houtputs, hreads, -⟩ := ofInput_eq_run hcreate hsize
    [.submit "1+1", .toggleMode, .setPartially false]
    ["m+", " 2*3 ", "m+", "recall 1", "mr", "recall x", "recalled -1", "2*", "quit", "9"]
  obtain rfl : false = b := Datum.bool.inj hb
  refine ⟨s₀, hcreate, hsize, hfault, ?_, ?_⟩
  · rw [hreads]
    decide +kernel
  · rw [houtputs]
    decide +kernel

end Session

end Reckoner
