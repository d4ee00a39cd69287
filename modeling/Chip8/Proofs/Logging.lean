import Chip8.Proofs.Run

/-!
# What the log tells about a run

The entries of a cycle come from several places: an instruction is announced, a key is taken or
waited for, by the instruction itself or in a later cycle, and the sound timer runs out. `Logs`
lists the ways in which a request can write to the log, each with what it does to the wait for a
key, and `logs` says that there are no others. From them the log of a whole run is accounted for:
its trace, the keys taken, the waits begun and the times the sound timer ran out. That the trace
rests while an instruction waits is told by reading the log with `LogEntry.follow`, which keeps
track of the wait. What is known of the entries is then known of the lines, which say what the
entries hold (`log_accounts_for_run`).
-/

namespace Chip8

namespace LogEntry

/-- Reads an entry while keeping track of whether an instruction waits for a key. Nothing may be
announced while one does. -/
def follow (waiting : Bool) (entry : LogEntry) : Option Bool :=
  if entry.awaiting?.isSome then some true
  else if entry.taken?.isSome then some false
  else if waiting && entry.isTrace then none
  else some waiting

/-- Until a key is taken, nothing is announced while an instruction waits. -/
theorem isTrace_of_foldlM_follow {entries : List LogEntry} {waiting : Bool}
    (h : entries.foldlM follow true = some waiting)
    (hkey : ∀ entry ∈ entries, entry.taken? = none) :
    ∀ entry ∈ entries, entry.isTrace = false := by
  induction entries with
  | nil => exact fun entry hentry => nomatch hentry
  | cons entry rest ih =>
    rw [List.forall_mem_cons] at hkey ⊢
    rw [List.foldlM_cons] at h
    cases entry with
    | executing address word instruction => cases h
    | keyTaken key => cases hkey.1
    | _ => exact ⟨rfl, ih h hkey.2⟩

/-- In a log that can be followed, nothing is announced from a wait on until a key is taken. -/
theorem trace_rests_of_foldlM_follow {start waiting : Bool} {wait : LogEntry}
    {earlier between later : List LogEntry}
    (h : (earlier ++ wait :: (between ++ later)).foldlM follow start = some waiting)
    (hwait : wait.awaiting?.isSome = true) (hkey : ∀ entry ∈ between, entry.taken? = none) :
    ∀ entry ∈ between, entry.isTrace = false := by
  rw [List.foldlM_append] at h
  obtain ⟨before, -, h⟩ := Option.bind_eq_some_iff.1 h
  have hfollow : follow before wait = some true := if_pos hwait
  rw [List.foldlM_cons, hfollow] at h
  have hrest : (between ++ later).foldlM follow true = some waiting := h
  rw [List.foldlM_append] at hrest
  obtain ⟨after, hbetween, -⟩ := Option.bind_eq_some_iff.1 hrest
  exact isTrace_of_foldlM_follow hbetween hkey

end LogEntry

namespace Machine

/-! ## What a request writes -/

/-- What a request writes to the log. -/
def logOf (m : Machine) : Request → List LogEntry
  | .restart => m.restart.log
  | .load program => (m.load program).log
  | .setKeys _ => []
  | .cycle randomByte => (m.cycle randomByte).log

/-- The address, the word and the instruction that a request fetches and decodes, if it is a cycle
that gets so far. -/
def fetchedBy (m : Machine) : Request → Option (UInt16 × UInt16 × Instruction)
  | .cycle _ =>
    match m.awaiting with
    | some _ => none
    | none =>
      (m.memory.word? m.pc.toNat).bind fun word =>
        (Instruction.decode word).map fun instruction => (m.pc, word, instruction)
  | _ => none

/-- Whether a request is a cycle that leaves an instruction waiting where none did. -/
def beginsWait (m : Machine) : Request → Bool
  | .cycle randomByte => m.awaiting.isNone && (m.cycle randomByte).machine.awaiting.isSome
  | _ => false

/-- Whether a request is a cycle in which the sound timer runs out. -/
def expiresIn (m : Machine) (request : Request) : Bool :=
  (m.outcomeOf request).any fun outcome => outcome.soundExpired

/-- What is written if the sound timer runs out. -/
def expiryLog (expired : Bool) : List LogEntry :=
  if expired then [.soundExpired] else []

/-- The ways in which a request writes to the log: the registers that wait for a key before and
after it, what it fetches and decodes, whether the sound timer runs out, and what is written. -/
inductive Logs : Option Register → Option Register → Option (UInt16 × UInt16 × Instruction) →
    Bool → List LogEntry → Prop
  /-- Nothing is decoded, and a wait goes on if there is one. -/
  | idle (awaiting : Option Register) (expired : Bool) :
    Logs awaiting awaiting none expired (expiryLog expired)
  /-- A program is loaded. -/
  | load (awaiting : Option Register) (size : Nat) :
    Logs awaiting awaiting none false [.loaded size]
  /-- A key ends the wait. -/
  | resume (x : Register) (key : Key) (expired : Bool) :
    Logs (some x) none none expired (.keyTaken key :: expiryLog expired)
  /-- An instruction that wants a key finds one. -/
  | take (address word : UInt16) (x : Register) (key : Key) (expired : Bool) :
    Logs none none (some (address, word, .awaitKey x)) expired
      (.executing address word (.awaitKey x) :: .keyTaken key :: expiryLog expired)
  /-- An instruction that wants a key begins to wait for one. -/
  | suspend (address word : UInt16) (x : Register) (expired : Bool) :
    Logs none (some x) (some (address, word, .awaitKey x)) expired
      (.executing address word (.awaitKey x) :: .awaitingKey x :: expiryLog expired)
  /-- Any other instruction is executed. -/
  | execute (address word : UInt16) {instruction : Instruction}
    (h : ∀ x, instruction ≠ .awaitKey x) (expired : Bool) :
    Logs none none (some (address, word, instruction)) expired
      (.executing address word instruction :: expiryLog expired)

theorem fetchedBy_of_fetch {m : Machine} {word : UInt16} {instruction : Instruction}
    (ha : m.awaiting = none) (hf : m.fetch = .ok (word, instruction)) (randomByte : UInt8) :
    m.fetchedBy (.cycle randomByte) = some (m.pc, word, instruction) := by
  obtain ⟨hw, hd⟩ := fetch_eq_ok_iff.1 hf
  simp only [fetchedBy, ha, hw, hd, Option.bind_some, Option.map_some]

theorem fetchedBy_of_fetch_error {m : Machine} {fault : Fault} (ha : m.awaiting = none)
    (hf : m.fetch = .error fault) (randomByte : UInt8) :
    m.fetchedBy (.cycle randomByte) = none := by
  simp only [fetchedBy, ha, Option.bind_eq_none_iff, Option.map_eq_none_iff]
  intro word hw
  refine Option.eq_none_iff_forall_ne_some.2 fun instruction hd => ?_
  rw [fetch_eq_ok_iff.2 ⟨hw, hd⟩] at hf
  cases hf

theorem log_complete (screenChanged : Bool) (log : List LogEntry) (m : Machine) :
    (m.complete screenChanged log).log = log ++ expiryLog (m.soundTimer == 1) := by
  unfold complete expiryLog
  cases m.soundTimer == 1 with
  | true => rfl
  | false => exact (List.append_nil log).symm

theorem expiresIn_of_complete {m m' : Machine} {randomByte : UInt8} {screenChanged : Bool}
    {log : List LogEntry} (h : m.cycle randomByte = m'.complete screenChanged log) :
    m.expiresIn (.cycle randomByte) = (m'.soundTimer == 1) := by
  simp only [expiresIn, outcomeOf, h]
  rfl

theorem expiresIn_of_error {m : Machine} {randomByte : UInt8} {fault : Fault}
    (h : (m.cycle randomByte).result = .error fault) :
    m.expiresIn (.cycle randomByte) = false := by
  simp only [expiresIn, outcomeOf, h]
  rfl

/-- An instruction that is carried out writes in one of the ways. -/
theorem logs_executionLog {m m' : Machine} (ha : m.awaiting = none) (instruction : Instruction)
    (hm : m'.awaiting = match instruction with
      | .awaitKey x => if m.keys.lowest?.isSome then none else some x
      | _ => m.awaiting) (address word : UInt16) (expired : Bool) :
    Logs none m'.awaiting (some (address, word, instruction)) expired
      (.executing address word instruction ::
        (m.executionLog instruction ++ expiryLog expired)) := by
  rw [hm]
  cases instruction with
  | awaitKey x =>
    dsimp only [executionLog]
    cases m.keys.lowest? with
    | some key => exact .take address word x key expired
    | none => exact .suspend address word x expired
  | _ =>
    rw [ha]
    exact .execute address word (fun x => Instruction.noConfusion) expired

/-- **A cycle writes in one of the ways.** -/
theorem logs_cycle (m : Machine) (randomByte : UInt8) :
    Logs m.awaiting (m.cycle randomByte).machine.awaiting (m.fetchedBy (.cycle randomByte))
      (m.expiresIn (.cycle randomByte)) (m.cycle randomByte).log := by
  rcases cycle_cases randomByte m with ⟨x, ha, hc⟩ | ⟨fault, ha, hf, hc⟩ |
    ⟨word, instruction, fault, ha, hf, hr, hc⟩ | ⟨word, instruction, ha, hf, hr, hc⟩
  · have hawaiting : (m.cycle randomByte).machine.awaiting =
        if m.keys.lowest?.isSome then none else m.awaiting := by
      rw [hc]
      exact awaiting_poll m x
    have hfetched : m.fetchedBy (.cycle randomByte) = none := by
      simp only [fetchedBy, ha]
    rw [hawaiting, hfetched, expiresIn_of_complete hc, hc, log_complete, pollLog, ha]
    cases m.keys.lowest? with
    | some key => exact .resume x key _
    | none => exact .idle (some x) _
  · rw [fetchedBy_of_fetch_error ha hf, expiresIn_of_error (congrArg Response.result hc), hc,
      ha]
    exact .idle none false
  · -- to want a key is never refused
    have hother : ∀ x, instruction ≠ .awaitKey x := by
      rintro x rfl
      cases hr
    rw [fetchedBy_of_fetch ha hf, expiresIn_of_error (congrArg Response.result hc), hc, ha]
    exact .execute m.pc word hother false
  · rw [fetchedBy_of_fetch ha hf, expiresIn_of_complete hc, hc, log_complete, ha]
    exact logs_executionLog ha instruction (awaiting_effect randomByte m instruction) m.pc word _

/-- **Every request but a restart writes in one of the ways.** -/
theorem logs {m : Machine} {request : Request} (h : request ≠ .restart) :
    Logs m.awaiting (m.perform request).awaiting (m.fetchedBy request)
      (m.expiresIn request) (m.logOf request) := by
  cases request with
  | restart => exact absurd rfl h
  | setKeys keys => exact .idle m.awaiting false
  | cycle randomByte => exact m.logs_cycle randomByte
  | load program =>
    have hawaiting : (m.perform (.load program)).awaiting = m.awaiting := by
      rw [perform, load_eq]
    rw [hawaiting, logOf, load]
    split
    · exact .idle m.awaiting false
    · split
      · exact .idle m.awaiting false
      · exact .load m.awaiting program.length

/-! ## Reading what a request wrote -/

namespace Logs

variable {awaiting awaiting' : Option Register}
  {fetched : Option (UInt16 × UInt16 × Instruction)} {expired : Bool} {entries : List LogEntry}
  (h : Logs awaiting awaiting' fetched expired entries)

include h

/-- The trace consists of the announcement of what was decoded. -/
theorem trace_eq :
    (entries.filter LogEntry.isTrace).map LogEntry.execution? = fetched.toList.map some := by
  cases h with
  | load => rfl
  | idle _ expired | resume _ _ expired | take _ _ _ _ expired | suspend _ _ _ expired
  | execute _ _ _ expired =>
    cases expired with
    | _ => rfl

/-- An instruction that is announced to want a key takes one or waits, and a wait ends with a key
taken. -/
theorem keysTaken_add :
    entries.countP (fun entry => entry.taken?.isSome) + awaiting'.isSome.toNat =
      entries.countP LogEntry.announcesWait + awaiting.isSome.toNat := by
  cases h with
  | load => rfl
  | idle _ expired | resume _ _ expired | take _ _ _ _ expired | suspend _ _ _ expired =>
    cases expired with
    | _ => rfl
  | @execute address word instruction hother expired =>
    have hwants : (LogEntry.executing address word instruction).announcesWait = false := by
      cases instruction with
      | awaitKey x => exact absurd rfl (hother x)
      | _ => rfl
    rw [List.countP_cons, List.countP_cons, hwants]
    cases expired with
    | _ => rfl

/-- A wait that begins is noted once. -/
theorem waitsBegun_eq :
    entries.countP (fun entry => entry.awaiting?.isSome) =
      if awaiting.isNone && awaiting'.isSome then 1 else 0 := by
  cases h with
  | load awaiting =>
    cases awaiting with
    | _ => rfl
  | idle awaiting expired =>
    cases awaiting with
    | _ =>
      cases expired with
      | _ => rfl
  | resume _ _ expired | take _ _ _ _ expired | suspend _ _ _ expired
  | execute _ _ _ expired =>
    cases expired with
    | _ => rfl

theorem expiries_eq : entries.countP LogEntry.isSoundExpired = if expired then 1 else 0 := by
  cases h with
  | load => rfl
  | idle _ expired | resume _ _ expired | take _ _ _ _ expired | suspend _ _ _ expired
  | execute _ _ _ expired =>
    cases expired with
    | _ => rfl

/-- Following the log keeps track of the wait. -/
theorem follow_eq :
    entries.foldlM LogEntry.follow awaiting.isSome = some awaiting'.isSome := by
  cases h with
  | load awaiting =>
    cases awaiting with
    | _ => rfl
  | idle awaiting expired =>
    cases awaiting with
    | _ =>
      cases expired with
      | _ => rfl
  | resume _ _ expired | take _ _ _ _ expired | suspend _ _ _ expired
  | execute _ _ _ expired =>
    cases expired with
    | _ => rfl

end Logs

/-! ## The log of a run -/

/-- What request number `k` of a run writes to the log. -/
def logAt (m : Machine) (requests : List Request) (k : Nat) : List LogEntry :=
  requests[k]?.elim [] (m.before requests k).logOf

/-- What the first `k` requests of a run write to the log. -/
def log (m : Machine) (requests : List Request) (k : Nat) : List LogEntry :=
  (List.range k).flatMap (m.logAt requests)

/-- What the lines that the first `k` requests of a run write to the log say. -/
def lines (m : Machine) (requests : List Request) (k : Nat) : List String :=
  (m.log requests k).map LogEntry.line

/-- The address, the word and the instruction that request number `k` of a run fetches and decodes,
if that is a cycle which gets so far. -/
def fetched? (m : Machine) (requests : List Request) (k : Nat) :
    Option (UInt16 × UInt16 × Instruction) :=
  requests[k]?.bind (m.before requests k).fetchedBy

/-- Whether request number `k` of a run is a cycle that leaves an instruction waiting where none
did. -/
def waitBegins (m : Machine) (requests : List Request) (k : Nat) : Bool :=
  requests[k]?.any (m.before requests k).beginsWait

/-- Whether request number `k` of a run is a cycle in which the sound timer runs out. -/
def soundExpires (m : Machine) (requests : List Request) (k : Nat) : Bool :=
  (m.outcome? requests k).any fun outcome => outcome.soundExpired

theorem log_succ (m : Machine) (requests : List Request) (k : Nat) :
    m.log requests (k + 1) = m.log requests k ++ m.logAt requests k := by
  unfold log
  rw [List.range_succ, List.flatMap_append, List.flatMap_singleton]

/-- A wait begins where one is found that was not there before. -/
theorem beginsWait_eq {m : Machine} {request : Request} (h : request ≠ .restart) :
    m.beginsWait request = (m.awaiting.isNone && (m.perform request).awaiting.isSome) := by
  have hsame : (m.awaiting.isNone && m.awaiting.isSome) = false := by
    cases m.awaiting with
    | _ => rfl
  cases request with
  | restart => exact absurd rfl h
  | setKeys keys => exact hsame.symm
  | cycle randomByte => rfl
  | load program =>
    rw [perform, load_eq]
    exact hsame.symm

section Runs

variable {m : Machine} {requests : List Request} (hr : .restart ∉ requests)

include hr

theorem ne_restart_of_getElem? {k : Nat} {request : Request} (hk : requests[k]? = some request) :
    request ≠ .restart := by
  rintro rfl
  exact hr (List.mem_of_getElem? hk)

/-- **Every point of a run** is left in one of the ways. -/
theorem logs_before (k : Nat) :
    Logs (m.before requests k).awaiting (m.before requests (k + 1)).awaiting
      (m.fetched? requests k) (m.soundExpires requests k) (m.logAt requests k) := by
  rw [before_succ, fetched?, soundExpires, outcome?, logAt]
  cases hk : requests[k]? with
  | none => exact .idle _ false
  | some request => exact logs (ne_restart_of_getElem? hr hk)

theorem waitBegins_eq (k : Nat) :
    m.waitBegins requests k =
      ((m.before requests k).awaiting.isNone && (m.before requests (k + 1)).awaiting.isSome) := by
  rw [before_succ, waitBegins]
  cases hk : requests[k]? with
  | none =>
    cases (m.before requests k).awaiting with
    | _ => rfl
  | some request => exact beginsWait_eq (ne_restart_of_getElem? hr hk)

theorem trace_log (k : Nat) :
    ((m.log requests k).filter LogEntry.isTrace).map LogEntry.execution? =
      ((List.range k).filterMap (m.fetched? requests)).map some := by
  induction k with
  | zero => rfl
  | succ k ih =>
    have hlast : List.filterMap (m.fetched? requests) [k] = (m.fetched? requests k).toList := by
      rw [List.filterMap_cons]
      cases m.fetched? requests k with
      | _ => rfl
    rw [log_succ, List.filter_append, List.map_append, ih, (logs_before hr k).trace_eq,
      List.range_succ, List.filterMap_append, List.map_append, hlast]

theorem keysTaken_log (ha : m.awaiting = none) (k : Nat) :
    (m.log requests k).countP (fun entry => entry.taken?.isSome) +
        (m.before requests k).awaiting.isSome.toNat =
      (m.log requests k).countP LogEntry.announcesWait := by
  induction k with
  | zero =>
    change 0 + m.awaiting.isSome.toNat = 0
    rw [ha]
    rfl
  | succ k ih =>
    have hstep := (logs_before (m := m) hr k).keysTaken_add
    rw [log_succ, List.countP_append, List.countP_append]
    omega

theorem waitsBegun_log (k : Nat) :
    (m.log requests k).countP (fun entry => entry.awaiting?.isSome) =
      (List.range k).countP (m.waitBegins requests) := by
  induction k with
  | zero => rfl
  | succ k ih =>
    rw [log_succ, List.countP_append, ih, (logs_before hr k).waitsBegun_eq, ← waitBegins_eq hr,
      List.range_succ, List.countP_append, List.countP_singleton]

theorem expiries_log (k : Nat) :
    (m.log requests k).countP LogEntry.isSoundExpired =
      (List.range k).countP (m.soundExpires requests) := by
  induction k with
  | zero => rfl
  | succ k ih =>
    rw [log_succ, List.countP_append, ih, (logs_before hr k).expiries_eq, List.range_succ,
      List.countP_append, List.countP_singleton]

theorem follow_log (ha : m.awaiting = none) (k : Nat) :
    (m.log requests k).foldlM LogEntry.follow false =
      some (m.before requests k).awaiting.isSome := by
  induction k with
  | zero =>
    change some false = some m.awaiting.isSome
    rw [ha]
    rfl
  | succ k ih =>
    rw [log_succ, List.foldlM_append, ih]
    exact (logs_before hr k).follow_eq

end Runs

/-! ## The lines of a run -/

section Lines

variable {p : String → Bool} {q : LogEntry → Bool} (h : ∀ entry, p entry.line = q entry)
  (entries : List LogEntry)

include h

theorem filter_map_line :
    (entries.map LogEntry.line).filter p = (entries.filter q).map LogEntry.line := by
  rw [List.filter_map, show p ∘ LogEntry.line = q from funext h]

theorem countP_map_line : (entries.map LogEntry.line).countP p = entries.countP q := by
  rw [List.countP_map, show p ∘ LogEntry.line = q from funext h]

end Lines

/-- The lines that the first `k` requests of a run write to the log account for their cycles. -/
structure LogAccounts (m : Machine) (requests : List Request) (k : Nat) : Prop where
  /-- The trace has a line for every cycle that fetched and decoded an instruction, in order, and
  the line names its address, its word and the instruction. -/
  trace_eq : ((m.lines requests k).filter LogLine.isTrace).map LogLine.execution? =
    ((List.range k).filterMap (m.fetched? requests)).map some
  /-- Every instruction that wanted a key got one, but for one that waits. -/
  keysTaken_add : (m.lines requests k).countP (fun line => (LogLine.taken? line).isSome) +
      (m.before requests k).awaiting.isSome.toNat =
    (m.lines requests k).countP LogLine.announcesWait
  /-- A wait is noted in every cycle in which one began. -/
  waitsBegun_eq : (m.lines requests k).countP (fun line => (LogLine.awaiting? line).isSome) =
    (List.range k).countP (m.waitBegins requests)
  /-- The trace rests from a wait on until a key is taken. -/
  trace_rests : ∀ earlier waiting between later,
    m.lines requests k = earlier ++ waiting :: (between ++ later) →
      (LogLine.awaiting? waiting).isSome = true →
        (∀ line ∈ between, LogLine.taken? line = none) →
          ∀ line ∈ between, LogLine.isTrace line = false
  /-- The sound timer is noted in every cycle in which it ran out. -/
  expiries_eq : (m.lines requests k).countP LogLine.isSoundExpired =
    (List.range k).countP (m.soundExpires requests)

/-- **The log accounts for every cycle** of a run without restarts from a machine in which no
instruction waits for a key, as after a reset. -/
theorem log_accounts_for_run {m : Machine} (ha : m.awaiting = none) {requests : List Request}
    (hr : .restart ∉ requests) (k : Nat) : m.LogAccounts requests k where
  trace_eq := by
    rw [lines, filter_map_line LogEntry.isTrace_line, List.map_map,
      show LogLine.execution? ∘ LogEntry.line = _ from funext LogEntry.execution?_line,
      trace_log hr]
  keysTaken_add := by
    rw [lines, countP_map_line fun entry => congrArg Option.isSome entry.taken?_line,
      countP_map_line LogEntry.announcesWait_line, keysTaken_log hr ha]
  waitsBegun_eq := by
    rw [lines, countP_map_line fun entry => congrArg Option.isSome entry.awaiting?_line,
      waitsBegun_log hr]
  trace_rests earlier waiting between later hlines hwaiting hkey := by
    have hfollow := follow_log hr ha k
    -- the entries behind the lines
    obtain ⟨earlier, rest, hlog, rfl, hrest⟩ := List.map_eq_append_iff.1 hlines
    obtain ⟨wait, tail, rfl, rfl, htail⟩ := List.map_eq_cons_iff.1 hrest
    obtain ⟨between, later, rfl, rfl, rfl⟩ := List.map_eq_append_iff.1 htail
    rw [hlog] at hfollow
    rw [LogEntry.awaiting?_line] at hwaiting
    simp only [List.forall_mem_map, LogEntry.taken?_line, LogEntry.isTrace_line] at hkey ⊢
    exact LogEntry.trace_rests_of_foldlM_follow hfollow hwaiting hkey
  expiries_eq := by
    rw [lines, countP_map_line LogEntry.isSoundExpired_line, expiries_log hr]

/-- In the run whose subroutine waits for a key, the lines of the trace name the call, the
instruction that waits and, once the key is taken, the return. -/
theorem log_accounts_for_run_subroutine :
    ((new.lines subroutineRun 6).filter LogLine.isTrace).map LogLine.execution? =
        [some (0x200, 0x2204, .call ⟨0x204, by decide⟩), some (0x204, 0xF30A, .awaitKey 3),
          some (0x206, 0x00EE, .ret)] ∧
      (new.lines subroutineRun 4).countP (fun line => (LogLine.taken? line).isSome) + 1 =
        (new.lines subroutineRun 4).countP LogLine.announcesWait := by
  have hrestart : Request.restart ∉ subroutineRun := by simp [subroutineRun]
  have hfetched : new.fetched? subroutineRun = fun k =>
      subroutineRun[k]?.bind (new.advanceAll (subroutineRun.take k)).fetchedBy := by
    funext k
    rw [fetched?, before, performAll_eq_advanceAll]
  have hawaiting : (new.before subroutineRun 4).awaiting.isSome = true := by
    rw [before, performAll_eq_advanceAll]
    decide +kernel
  have hwaiting := (log_accounts_for_run (m := new) rfl hrestart 4).keysTaken_add
  rw [hawaiting, Bool.toNat_true] at hwaiting
  refine ⟨(log_accounts_for_run (m := new) rfl hrestart 6).trace_eq.trans ?_, hwaiting⟩
  rw [hfetched]
  decide +kernel

end Machine

end Chip8
