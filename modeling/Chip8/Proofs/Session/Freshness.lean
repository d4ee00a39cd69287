import Chip8.Proofs.Session.Lifecycle
import Chip8.Proofs.Session.Loop

/-!
# The snapshot never goes stale

Before a start succeeds, the snapshot of a session is empty. From then on it shows the screen of the
machine (`Snapshot.Shows`): between any two operations, in a run and after it, and within a run
whenever a callback is called or a cycle begins. The snapshot of a session that lost its machine
shows the last screen of that machine. `snapshot_mirrors_screen` states this for every history.
-/

namespace Chip8

/-- A screen has three packed bytes for each of its 64 × 32 pixels. -/
theorem Bitmap.IsScreen.size_packed {b : Bitmap} (h : b.IsScreen) (color : Color) :
    (b.packed color).size = 64 * 32 * 3 := by
  rw [b.size_packed, packedSize, ← b.size_pixels, h.size_eq]

/-- The snapshot is the packed image of the screen, with three bytes for each of 64 × 32 pixels. -/
structure Snapshot.Shows (snapshot : Snapshot) (color : Color) (screen : Bitmap) : Prop where
  bytes_eq : snapshot.bytes = screen.packed color
  size_eq : snapshot.bytes.size = 64 * 32 * 3

theorem Snapshot.shows_packed {m : Machine} (h : m.Reachable) (color : Color) :
    Snapshot.Shows ⟨m.screen.packed color⟩ color m.screen :=
  ⟨rfl, h.sound.screen.size_packed color⟩

/-- The snapshot shows the screen, unless the next step takes a changed screen over. -/
def Loop.ShowsScreen (l : Loop) (color : Color) : Prop :=
  ¬l.Stale → l.snapshot.Shows color l.engine.machine.screen

namespace Session

/-- A start has succeeded: the program loads, and the snapshot is in step with the machine. -/
structure Started (s : Session) : Prop where
  loads : ∃ size, (Machine.powerOn.machine.load s.program).result = .ok size
  snapshot_eq : ∀ e, s.engine? = some e →
    s.snapshot = ⟨e.machine.screen.packed s.options.color⟩

section Operations

variable {s : Session}

theorem Started.of_keepsMachine {s' : Session} (h : s.Started) (hk : s.KeepsMachine s')
    (hframe : s'.program = s.program ∧ s'.options = s.options)
    (hsnapshot : s'.snapshot = s.snapshot) : s'.Started := by
  refine ⟨hframe.1 ▸ h.loads, fun e' he' => ?_⟩
  obtain ⟨e, he, hmachine⟩ := hk e' he'
  rw [hsnapshot, hmachine, hframe.2]
  exact h.snapshot_eq e he

/-- **The loop of a session in step** stays in step at all of its points. -/
theorem Started.fresh_run (h : s.Started) {e : Engine} {cycles : Nat} (hh : s.Holds e cycles)
    (point : Point) (inputs : List (Keypad × UInt8))
    (hn : ¬((s.loop e cycles point).run s.options inputs).Stale) :
    ((s.loop e cycles point).run s.options inputs).Fresh s.options.color :=
  Loop.fresh_run (l := s.loop e cycles point) (fun _ => h.snapshot_eq e (engine?_of_active hh))
    inputs hn

theorem Started.showsScreen (h : s.Started) (hs : s.Sound) {e : Engine} {cycles : Nat}
    (hh : s.Holds e cycles) (point : Point) (inputs : List (Keypad × UInt8)) :
    ((s.loop e cycles point).run s.options inputs).ShowsScreen s.options.color := by
  intro hn
  have hfresh : Loop.snapshot _ = _ := h.fresh_run hh point inputs hn
  rw [hfresh]
  exact Snapshot.shows_packed (Loop.reachable_run (hs e (engine?_of_active hh)) inputs) _

theorem Started.cycle (h : s.Started) (randomByte : UInt8) :
    (s.cycle randomByte).session.Started := by
  cases hr : s.isRunning with
  | false =>
    rw [cycle_of_not_running hr]
    exact h
  | true =>
    obtain ⟨e, cycles, hh⟩ := isRunning_eq_true_iff.1 hr
    -- the other steps of the cycle need no input
    obtain ⟨⟨ending, hpoint⟩, hcycle, -⟩ :=
      cycle_eq_run hh s.keypad randomByte (s.keypad, 0) (s.keypad, 0) (s.keypad, 0)
    have hfresh := h.fresh_run hh .cycle
      [(s.keypad, randomByte), (s.keypad, 0), (s.keypad, 0), (s.keypad, 0)] (by
        rintro ⟨outcome, hp, -⟩
        rw [hpoint] at hp
        cases ending with
        | _ => cases hp)
    rw [hcycle]
    refine ⟨h.loads, fun e' he' => ?_⟩
    obtain rfl := Option.some.inj he'
    exact hfresh

theorem Started.refresh (h : s.Started) : s.refresh.session.Started := by
  cases hr : s.isRunning with
  | false =>
    rw [refresh_of_not_running hr]
    exact h
  | true =>
    obtain ⟨e, cycles, hh⟩ := isRunning_eq_true_iff.1 hr
    cases hd : s.options.refreshDue cycles with
    | false =>
      rw [refresh_of_not_due hh hd]
      exact h
    | true =>
      obtain ⟨keys, hkeys⟩ := e.machine_refresh s.keypad
      rw [refresh_of_due hh hd]
      refine ⟨h.loads, fun e' he' => ?_⟩
      obtain rfl := Option.some.inj he'
      change s.snapshot = _
      rw [hkeys]
      exact h.snapshot_eq e (engine?_of_active hh)

theorem Started.settle (h : s.Started) : s.settle.session.Started := by
  obtain ⟨mode, hsettle⟩ := s.settle_frame
  exact h.of_keepsMachine s.keepsMachine_settle (by rw [hsettle]; exact ⟨rfl, rfl⟩)
    (by rw [hsettle])

/-- A session that has just begun a run is in step with its machine. -/
theorem started_begun {e : Engine} {size : Nat}
    (hl : (Machine.powerOn.machine.load s.program).result = .ok size) : (s.begun e).Started := by
  refine ⟨⟨size, hl⟩, fun e' he' => ?_⟩
  obtain rfl := Option.some.inj he'
  rfl

/-- **A start that succeeds** brings the snapshot into step with the machine. -/
theorem Sound.started_of_start (hs : s.Sound) (h : s.start.result = .ok ()) :
    s.start.session.Started := by
  rcases hs.start_cases with ⟨run, -, hstart⟩ | ⟨-, hstart⟩ | ⟨e, cause, -, -, hstart⟩ |
    ⟨e, size, -, hl, hstart⟩
  · rw [hstart] at h
    cases h
  · rw [hstart] at h
    cases h
  · rw [hstart] at h
    cases h
  · rw [hstart]
    exact (started_begun hl).refresh

/-- **No operation** brings the snapshot out of step with the machine. -/
theorem Started.perform (h : s.Started) (hs : s.Sound) (operation : Operation) :
    (s.perform operation).session.Started := by
  cases operation with
  | keys move => cases move with | _ => exact ⟨h.loads, h.snapshot_eq⟩
  | attach attachment =>
    obtain ⟨mode, hattach⟩ := s.attach_frame attachment
    have hsnapshot : (s.attach attachment).snapshot = s.snapshot := by rw [hattach]
    exact h.of_keepsMachine (s.keepsMachine_attach attachment)
      (s.perform_frame (.attach attachment)) hsnapshot
  | start =>
    change s.start.session.Started
    rcases hs.start_cases with ⟨run, -, hstart⟩ | ⟨-, hstart⟩ | ⟨e, cause, -, hl, -⟩ |
      ⟨e, size, -, hl, hstart⟩
    · rw [hstart]
      exact h
    · rw [hstart]
      exact h
    · obtain ⟨size, hloads⟩ := h.loads
      cases hl.symm.trans hloads
    · rw [hstart]
      exact (started_begun hl).refresh
  | iterate randomByte meanwhile =>
    refine Started.refresh ((h.cycle randomByte).of_keepsMachine (keepsMachine_of_mode ?_) ?_ ?_)
    · rw [moveAll_eq]
    · rw [moveAll_eq]
      exact ⟨rfl, rfl⟩
    · rw [moveAll_eq]
  | countOverrun =>
    change (if s.isRunning then s.countOverrun else s).Started
    split
    · exact ⟨h.loads, h.snapshot_eq⟩
    · exact h
  | stop randomByte => exact (h.cycle randomByte).settle

/-- **Histories** in which a start succeeds bring the snapshot into step with the machine. -/
theorem Sound.started_after (hs : s.Sound) {history : List Operation}
    (h : s.Started ∨ ∃ seen ∈ s.observations history, seen.answer = .started (.ok ())) :
    (s.after history).Started := by
  induction history generalizing s with
  | nil =>
    rcases h with h | ⟨seen, hmem, -⟩
    · exact h
    · cases hmem
  | cons operation rest ih =>
    refine ih (hs.perform operation) ?_
    rcases h with h | ⟨seen, hmem, hseen⟩
    · exact .inl (h.perform hs operation)
    · rcases List.mem_cons.1 hmem with rfl | hmem
      · cases operation with
        | start => exact .inl (hs.started_of_start (Answer.started.inj hseen))
        | keys | attach | iterate | countOverrun | stop => cases hseen
      · exact .inr ⟨seen, hmem, hseen⟩

/-- A session that has a run has started. -/
theorem started_of_active {origin : Session} (ho : origin.Sound) (hu : origin.Unstarted)
    {history : List Operation} {run : Run} (hm : (origin.after history).mode = .active run) :
    (origin.after history).Started := by
  by_cases h : ∃ seen ∈ origin.observations history, seen.answer = .started (.ok ())
  · exact ho.started_after (.inr h)
  · obtain ⟨-, -, e, he⟩ := hu.after ho fun seen hmem hseen => h ⟨seen, hmem, hseen⟩
    cases he.symm.trans hm

end Operations

/-! ## The last screen of a lost machine -/

/-- Nothing changes the snapshot once the machine is lost. -/
theorem snapshot_perform_of_lost {s : Session} (h : s.mode = .lost) (operation : Operation) :
    (s.perform operation).session.snapshot = s.snapshot := by
  have hrunning : s.isRunning = false := by
    unfold isRunning
    rw [h]
  cases operation with
  | keys move => cases move with | _ => rfl
  | attach attachment =>
    rw [perform, attach_of_not_available (by rw [h]; exact fun _ => Mode.noConfusion)]
    rfl
  | start =>
    rw [perform, start_of_lost h]
    rfl
  | iterate randomByte meanwhile =>
    rw [perform_iterate_of_not_running hrunning, moveAll_eq]
    rfl
  | countOverrun =>
    simp only [perform, hrunning, Bool.false_eq_true, if_false]
    rfl
  | stop randomByte =>
    rw [perform, stop_of_not_active (by rw [h]; exact fun _ => Mode.noConfusion)]
    rfl

/-- The history stopped a run which a crash had ended with `e` as its engine. -/
def Loses (origin : Session) (history : List Operation) (e : Engine) : Prop :=
  ∃ before randomByte rest cycles, history = before ++ .stop randomByte :: rest ∧
    ((origin.after before).cycle randomByte).session.mode = .active ⟨e, cycles, some .crash⟩

theorem Loses.append {origin : Session} {history : List Operation} {e : Engine}
    (h : origin.Loses history e) (later : List Operation) : origin.Loses (history ++ later) e := by
  obtain ⟨before, randomByte, rest, cycles, rfl, hmode⟩ := h
  exact ⟨before, randomByte, rest ++ later, cycles, by rw [List.append_assoc]; rfl, hmode⟩

/-- **The snapshot of a lost machine** shows the screen that the machine had when its run
crashed. -/
theorem exists_loses_of_lost {origin : Session} (ho : origin.Sound) (hu : origin.Unstarted)
    {history : List Operation} (hm : (origin.after history).mode = .lost) :
    ∃ e, origin.Loses history e ∧ e.machine.Reachable ∧
      (origin.after history).snapshot =
        ⟨e.machine.screen.packed (origin.after history).options.color⟩ := by
  induction history using List.reverseRecOn with
  | nil =>
    obtain ⟨-, -, e, he⟩ := hu
    cases he.symm.trans hm
  | append_singleton earlier operation ih =>
    have hs := ho.after earlier
    rw [after_concat, lost_of_perform_iff hs] at hm
    rw [after_concat, ((origin.after earlier).perform_frame operation).2]
    rcases hm with hlost | hcrashed
    · obtain ⟨e, hloses, hreachable, hsnapshot⟩ := ih hlost
      exact ⟨e, hloses.append [operation], hreachable,
        (snapshot_perform_of_lost hlost operation).trans hsnapshot⟩
    · cases operation with
      | stop randomByte =>
        obtain ⟨⟨run, hrun⟩, e, cycles, hcrash⟩ :=
          active_of_stop_crashed (Answer.stopped.inj hcrashed)
        have hcycled := (started_of_active ho hu hrun).cycle randomByte
        obtain ⟨mode, snapshot, hframe⟩ := (origin.after earlier).cycle_frame randomByte
        obtain ⟨mode', hsettle⟩ := ((origin.after earlier).cycle randomByte).session.settle_frame
        have hoptions : ((origin.after earlier).cycle randomByte).session.options =
            (origin.after earlier).options := by
          rw [hframe]
        refine ⟨e, ⟨earlier, randomByte, [], cycles, rfl, hcrash⟩,
          hs.cycle randomByte e (engine?_of_active hcrash), ?_⟩
        change ((origin.after earlier).cycle randomByte).session.settle.session.snapshot = _
        rw [hsettle, ← hoptions]
        exact hcycled.snapshot_eq e (engine?_of_active hcrash)
      | keys | attach | start | iterate | countOverrun => cases hcrashed

/-! ## The law -/

/-- What the snapshot is at the end of a history that led from `origin` to `s`, and on the way from
there. -/
structure Mirrors (origin : Session) (history : List Operation) (s : Session) : Prop where
  /-- It is empty as long as no start succeeded. -/
  empty : (∀ seen ∈ origin.observations history, seen.answer ≠ .started (.ok ())) →
    s.snapshot = Snapshot.empty
  /-- After that it shows the screen of the machine, be it at hand or part of a run, which may have
  ended. -/
  shows : (∃ seen ∈ origin.observations history, seen.answer = .started (.ok ())) →
    ∀ e, s.engine? = some e → s.snapshot.Shows s.options.color e.machine.screen
  /-- It shows the last screen of a machine that was lost. -/
  shows_lost : s.mode = .lost →
    ∃ e, origin.Loses history e ∧ s.snapshot.Shows s.options.color e.machine.screen
  /-- Within a run it shows the screen at all points of the loop, whenever a callback is called and
  before every cycle. The one exception is right after a cycle that touched the screen. -/
  shows_running : ∀ {e cycles}, s.Holds e cycles → ∀ inputs,
    ((s.loop e cycles .cycle).run s.options inputs).ShowsScreen s.options.color
  /-- So it does from the first refresh on. -/
  shows_starting : ∀ {e}, s.mode = .available e → s.start.result = .ok () → ∀ inputs,
    (((s.begun e).loop (e.withMachine (loadedMachine s.program)) 0 .refresh).run s.options
      inputs).ShowsScreen s.options.color
  /-- These are the points that the session goes through: in a start that succeeds, -/
  start_eq : ∀ {e}, s.mode = .available e → s.start.result = .ok () → ∀ randomByte,
    let l := ((s.begun e).loop (e.withMachine (loadedMachine s.program)) 0 .refresh).step s.options
      s.keypad randomByte
    s.start.session = (s.begun e).withLoop l ∧ s.start.signals = l.signals
  /-- in a cycle, which a stop consists of, -/
  cycle_eq : ∀ {e cycles}, s.Holds e cycles → ∀ handle randomByte second third fourth,
    let l := (s.loop e cycles .cycle).run s.options [(handle, randomByte), second, third, fourth]
    (s.cycle randomByte).session = s.withLoop l ∧ (s.cycle randomByte).signals = l.signals
  /-- and in an iteration. -/
  iterate_eq : ∀ {e cycles}, s.Holds e cycles →
    ∀ handle randomByte lastByte second third fourth meanwhile,
    let l := (s.loop e cycles .cycle).run s.options [(handle, randomByte), second, third, fourth,
      (s.keypad.moveAll meanwhile, lastByte)]
    (s.perform (.iterate randomByte meanwhile)).session = (s.moveAll meanwhile).withLoop l ∧
      (s.perform (.iterate randomByte meanwhile)).signals = l.signals

/-- **The snapshot never goes stale**, whatever is done to a session and whatever its callbacks
do. -/
theorem snapshot_mirrors_screen (program : Bytes) (options : Options) (history : List Operation) :
    (fresh program options).Mirrors history ((fresh program options).after history) := by
  have ho := sound_fresh program options
  have hu := unstarted_fresh program options
  have hs := ho.after history
  exact {
    empty := fun h => (hu.after ho h).snapshot_eq
    shows := fun h e he => by
      rw [(ho.started_after (.inr h)).snapshot_eq e he]
      exact Snapshot.shows_packed (hs e he) _
    shows_lost := fun h => by
      obtain ⟨e, hloses, hreachable, hsnapshot⟩ := exists_loses_of_lost ho hu h
      refine ⟨e, hloses, ?_⟩
      rw [hsnapshot]
      exact Snapshot.shows_packed hreachable _
    shows_running := fun hh inputs =>
      (started_of_active ho hu hh).showsScreen hs hh .cycle inputs
    shows_starting := fun {e} hm hstart inputs => by
      obtain ⟨-, size, hl⟩ := hs.starts.ok_iff.1 hstart
      exact (started_begun hl).showsScreen (sound_begun _ e) rfl .refresh inputs
    start_eq := fun hm hstart randomByte => by
      obtain ⟨-, size, hl⟩ := hs.starts.ok_iff.1 hstart
      exact start_eq_step hm (hs.of_available hm) hl randomByte
    cycle_eq := fun hh handle randomByte second third fourth =>
      (cycle_eq_run hh handle randomByte second third fourth).2
    iterate_eq := iterate_eq_run }

end Session

end Chip8
