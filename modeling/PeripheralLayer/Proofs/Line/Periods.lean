import PeripheralLayer.Line
import PeripheralLayer.Proofs.Past

/-!
When a line writes to its pin. A step's place in a run is told by its past: the steps so far, with what each of
them replied and attempted. `Since` reads off such a past whether a period is still running, and the rules for a
line (`LineEntry.Orderly`) speak of nothing else, so a line's own flag does not occur in them. `LineBench.Stands`
relates a bench to the past that it came out of, and is what every step keeps.
-/
namespace PeripheralLayer

structure LineEntry where
  step : LineStep
  moment : LineMoment

namespace LineEntry

variable {connected : Bool} {past : List LineEntry} {now : LineEntry}

def Starts (e : LineEntry) : Prop := e.step = .use .init ∧ e.moment.reply = .status .success

def TakesOut (e : LineEntry) : Prop := e.step = .use .release

def Wraps (e : LineEntry) : Prop := ∃ id, e.step = .rewrap id

def Stops (e : LineEntry) : Prop := e.step = .use .deinit ∨ e.Wraps

def Wires (e : LineEntry) : Prop := ∃ low high, e.step = .fail low high

def Spoils (level : Level) (e : LineEntry) : Prop :=
  ∃ low high, e.step = .fail low high ∧ ((Wiring.mk low high).write level).failed = true

/-- Since the line was made there was an `init` that succeeded, and no `deinit` after it. -/
def Driven (past : List LineEntry) : Prop := Since Starts Stops past

def Gone (past : List LineEntry) : Prop := Since TakesOut Wraps past

def Failing (level : Level) (past : List LineEntry) : Prop := Since (Spoils level) Wires past

/-- There is a line and it has a pin in it. A pin that was there once is in every later line. -/
def Wrapped (connected : Bool) (past : List LineEntry) : Prop := connected = true ∧ ¬ Gone past

/-- Where a step is to write a level: always for `init`, and for a level only while the line is driven. -/
def Due (connected : Bool) (past : List LineEntry) (step : LineStep) (level : Level) : Prop :=
  Wrapped connected past ∧
    (step = .use .init ∧ level = .low ∨ step = .use (.drive level) ∧ Driven past)

theorem Due.unique {step : LineStep} {level level' : Level} (due : Due connected past step level)
    (due' : Due connected past step level') : level = level' := by
  rcases due with ⟨-, ⟨rfl, rfl⟩ | ⟨rfl, -⟩⟩
  · rcases due' with ⟨-, ⟨-, rfl⟩ | ⟨eq, -⟩⟩
    · rfl
    · simp at eq
  · rcases due' with ⟨-, ⟨eq, -⟩ | ⟨eq, -⟩⟩
    · simp at eq
    · simpa using eq

/-- What an entry does, told from what came before it. -/
structure Orderly (connected : Bool) (past : List LineEntry) (now : LineEntry) : Prop where
  once : now.moment.attempts.length ≤ 1
  attempted_iff : ∀ level, level ∈ now.moment.attempts.map Attempt.level ↔ Due connected past now.step level
  failed_iff : ∀ a ∈ now.moment.attempts, a.failed = true ↔ Failing a.level past
  failed_keeps : ∀ a ∈ now.moment.attempts, a.failed = true → (Driven (past ++ [now]) ↔ Driven past)
  init_iff : now.step = .use .init →
    (now.moment.reply = .status .success ↔ Wrapped connected past ∧ ⟨.low, false⟩ ∈ now.moment.attempts)
  init_else : now.step = .use .init → ¬ Gone past → now.moment.reply ≠ .status .success →
    now.moment.reply = .status .failure
  deinit : now.step = .use .deinit → ¬ Gone past → now.moment.reply = .status .success
  release : now.step = .use .release → ¬ Gone past →
    ∃ present, now.moment.reply = .pin present ∧ (present = true ↔ Wrapped connected past)
  gone : ∀ use, now.step = .use use → Gone past → now.moment.reply = .released
  rewrapped : Since Wraps Starts past → ∀ level, now.step = .use (.drive level) → now.moment.attempts = []

end LineEntry

open LineEntry

namespace Line

theorem init_cases (line : Line) (w : Wiring) :
    (line.connected = false ∧ line.init w = (line, .failure, [])) ∨
      (line.connected = true ∧ (w.write .low).failed = true ∧ line.init w = (line, .failure, [w.write .low])) ∨
      (line.connected = true ∧ (w.write .low).failed = false ∧
        line.init w = ({ line with driving := true }, .success, [w.write .low])) := by
  cases connected : line.connected with
  | false => exact .inl ⟨rfl, by simp [init, connected]⟩
  | true =>
    cases failed : (w.write .low).failed with
    | true => exact .inr (.inl ⟨rfl, rfl, by simp [init, connected, failed]⟩)
    | false => exact .inr (.inr ⟨rfl, rfl, by simp [init, connected, failed]⟩)

theorem connected_init (line : Line) (w : Wiring) : (line.init w).1.connected = line.connected := by
  rcases line.init_cases w with ⟨-, run⟩ | ⟨-, -, run⟩ | ⟨-, -, run⟩ <;> rw [run]

theorem driving_init (line : Line) (w : Wiring) :
    (line.init w).1.driving = true ↔ (line.init w).2.1 = .success ∨ line.driving = true := by
  rcases line.init_cases w with ⟨-, run⟩ | ⟨-, -, run⟩ | ⟨-, -, run⟩ <;> simp [run]

end Line

namespace LineBench

variable {connected : Bool} {past : List LineEntry} {b : LineBench}

def fresh (id : Pin) (connected : Bool) : LineBench := { line := some { id, connected } }

def leaves (b : LineBench) (steps : List LineStep) : LineBench :=
  steps.foldl (fun b step => (b.perform step).after) b

def record (b : LineBench) (steps : List LineStep) : List LineEntry := steps.zipWith LineEntry.mk (b.run steps)

theorem record_append (b : LineBench) (past later : List LineStep) :
    b.record (past ++ later) = b.record past ++ (b.leaves past).record later := by
  induction past generalizing b with
  | nil => rfl
  | cons step past ih => exact congrArg (List.cons _) (ih (b.perform step).after)

theorem record_cons (b : LineBench) (step : LineStep) (later : List LineStep) :
    b.record (step :: later) = ⟨step, b.perform step⟩ :: (b.perform step).after.record later :=
  rfl

structure Stands (connected : Bool) (past : List LineEntry) (b : LineBench) : Prop where
  gone : b.line = none ↔ Gone past
  pin : b.pinAtHand = connected
  driving : ∀ line, b.line = some line → (line.driving = true ↔ Driven past)
  wiring : ∀ level, (b.wiring.write level).failed = true ↔ Failing level past

theorem stands_fresh (id : Pin) (connected : Bool) : (fresh id connected).Stands connected [] where
  gone := ⟨nofun, fun gone => absurd gone not_since_nil⟩
  pin := rfl
  driving line has := by
    obtain rfl : ({ id, connected } : Line) = line := Option.some_inj.mp has
    exact ⟨nofun, fun driven => absurd driven not_since_nil⟩
  wiring level := by
    refine ⟨?_, fun failing => absurd failing not_since_nil⟩
    cases level <;> nofun

/-! What one step keeps. -/

theorem driven_snoc (now : LineEntry) : Driven (past ++ [now]) ↔ now.Starts ∨ Driven past ∧ ¬ now.Stops :=
  since_snoc

theorem gone_snoc (now : LineEntry) : Gone (past ++ [now]) ↔ now.TakesOut ∨ Gone past ∧ ¬ now.Wraps :=
  since_snoc

theorem failing_snoc (level : Level) (now : LineEntry) :
    Failing level (past ++ [now]) ↔ now.Spoils level ∨ Failing level past ∧ ¬ now.Wires :=
  since_snoc

theorem spoils_fail {level : Level} {low high : Bool} {m : LineMoment} :
    Spoils level ⟨.fail low high, m⟩ ↔ ((Wiring.mk low high).write level).failed = true := by
  constructor
  · rintro ⟨low', high', same, fails⟩
    obtain ⟨rfl, rfl⟩ := LineStep.fail.inj same
    exact fails
  · exact fun fails => ⟨low, high, rfl, fails⟩

theorem Stands.failing_used (h : b.Stands connected past) (u : LineUse) (m : LineMoment) (level : Level) :
    (b.wiring.write level).failed = true ↔ Failing level (past ++ [⟨.use u, m⟩]) := by
  simpa [failing_snoc, Spoils, Wires] using h.wiring level

theorem Stands.used (h : b.Stands connected past) {u : LineUse} (stays : u ≠ .release) (m : LineMoment)
    {line line' : Line} (has : b.line = some line) (same : line'.connected = line.connected)
    (driving : line'.driving = true ↔ Driven (past ++ [⟨.use u, m⟩])) :
    Stands connected (past ++ [⟨.use u, m⟩]) { b with line := some line' } := by
  constructor
  case gone =>
    have present : ¬ Gone past := by simp [← h.gone, has]
    simp [gone_snoc, TakesOut, Wraps, stays, present]
  case pin =>
    have pin := h.pin
    rw [pinAtHand, has] at pin
    exact same.trans pin
  case driving =>
    intro other eq
    rwa [← Option.some_inj.mp eq]
  case wiring => exact h.failing_used u m

theorem Stands.use (h : b.Stands connected past) {line : Line} (has : b.line = some line) (u : LineUse) :
    (b.use line u).after.Stands connected (past ++ [⟨.use u, b.use line u⟩]) := by
  have before := h.driving line has
  cases u with
  | init =>
    have driven : (line.init b.wiring).1.driving = true ↔ Driven (past ++ [⟨.use .init, b.use line .init⟩]) := by
      rw [line.driving_init, before, driven_snoc]
      simp [Starts, Stops, Wraps, LineBench.use]
    exact h.used LineUse.noConfusion _ has (line.connected_init b.wiring) driven
  | deinit =>
    refine h.used LineUse.noConfusion _ has rfl ?_
    simp [driven_snoc, Starts, Stops]
  | drive level =>
    have kept : { b with line := some line } = b := by rw [← has]
    refine kept ▸ h.used LineUse.noConfusion _ has rfl ?_
    simpa [driven_snoc, Starts, Stops, Wraps] using before
  | release =>
    constructor
    case gone => simp [LineBench.use, gone_snoc, TakesOut]
    case pin => simpa [pinAtHand, has, LineBench.use] using h.pin
    case driving => simp [LineBench.use]
    case wiring => exact h.failing_used _ _

theorem Stands.step (h : b.Stands connected past) (step : LineStep) :
    (b.perform step).after.Stands connected (past ++ [⟨step, b.perform step⟩]) := by
  cases step with
  | fail low high =>
    constructor
    case gone => simpa [perform, gone_snoc, TakesOut, Wraps] using h.gone
    case pin => simpa [perform, pinAtHand] using h.pin
    case driving => simpa [perform, driven_snoc, Starts, Stops, Wraps] using h.driving
    case wiring =>
      intro level
      simp [perform, failing_snoc, spoils_fail, Wires]
  | rewrap id =>
    constructor
    case gone => simp [perform, gone_snoc, TakesOut, Wraps]
    case pin => simpa [perform, pinAtHand] using h.pin
    case driving => simp [perform, driven_snoc, Starts, Stops, Wraps]
    case wiring => simpa [perform, failing_snoc, Spoils, Wires] using h.wiring
  | use u =>
    cases has : b.line with
    | some line => simpa [perform, has] using h.use has u
    | none =>
      have gone : Gone past := h.gone.mp has
      constructor
      case gone => simp [perform, has, gone_snoc, Wraps, gone]
      case pin => simpa [perform, has] using h.pin
      case driving => simp [perform, has]
      case wiring => simpa [perform, has] using h.failing_used u _

/-! What one step does. -/

theorem Stands.wrapped_iff (h : b.Stands connected past) :
    Wrapped connected past ↔ ∃ line, b.line = some line ∧ line.connected = true := by
  have pin := h.pin
  rw [Wrapped, ← h.gone, ← pin, pinAtHand]
  cases b.line <;> simp

theorem Stands.attempts (h : b.Stands connected past) (step : LineStep) :
    (∃ level, Due connected past step level ∧ (b.perform step).attempts = [b.wiring.write level]) ∨
      (∀ level, ¬ Due connected past step level) ∧ (b.perform step).attempts = [] := by
  have wrapped := h.wrapped_iff
  cases step with
  | fail low high => exact .inr ⟨by simp [Due], rfl⟩
  | rewrap id => exact .inr ⟨by simp [Due], rfl⟩
  | use u =>
    cases has : b.line with
    | none => exact .inr ⟨by simp [Due, wrapped, has], by simp [perform, has]⟩
    | some line =>
      have driving := h.driving line has
      have performed : b.perform (.use u) = b.use line u := by simp [perform, has]
      rw [performed]
      cases u with
      | init =>
        rcases line.init_cases b.wiring with ⟨unconnected, run⟩ | ⟨inside, -, run⟩ | ⟨inside, -, run⟩
        · exact .inr ⟨by simp [Due, wrapped, has, unconnected], by simp [LineBench.use, run]⟩
        all_goals exact .inl ⟨.low, by simp [Due, wrapped, has, inside], by simp [LineBench.use, run]⟩
      | deinit => exact .inr ⟨by simp [Due], rfl⟩
      | drive level =>
        by_cases both : line.driving = true ∧ line.connected = true
        · exact .inl ⟨level, by simp [Due, wrapped, has, ← driving, both], by simp [LineBench.use, Line.drive, both]⟩
        · refine .inr ⟨?_, by simpa [LineBench.use, Line.drive] using both⟩
          simp only [Due, wrapped, has, ← driving]
          grind
      | release => exact .inr ⟨by simp [Due], rfl⟩

theorem Stands.init_reply (h : b.Stands connected past) (present : ¬ Gone past) :
    (Wrapped connected past ∧ ⟨.low, false⟩ ∈ (b.perform (.use .init)).attempts ∧
        (b.perform (.use .init)).reply = .status .success) ∨
      (¬ (Wrapped connected past ∧ ⟨.low, false⟩ ∈ (b.perform (.use .init)).attempts) ∧
        (b.perform (.use .init)).reply = .status .failure) := by
  have wrapped := h.wrapped_iff
  obtain ⟨line, has⟩ := Option.ne_none_iff_exists'.mp (mt h.gone.mp present)
  rw [show b.perform (.use .init) = b.use line .init by simp [perform, has]]
  rcases line.init_cases b.wiring with ⟨unconnected, run⟩ | ⟨inside, fails, run⟩ | ⟨inside, takes, run⟩
  · exact .inr ⟨by simp [LineBench.use, run], by simp [LineBench.use, run]⟩
  · refine .inr ⟨?_, by simp [LineBench.use, run]⟩
    rintro ⟨-, mem⟩
    rw [LineBench.use, run, List.mem_singleton] at mem
    simp [← mem] at fails
  · have written : b.wiring.write .low = ⟨.low, false⟩ := congrArg (Attempt.mk .low) takes
    exact .inl ⟨by simp [wrapped, has, inside], by simp [LineBench.use, run, written], by simp [LineBench.use, run]⟩

theorem Stands.orderly (h : b.Stands connected past) (step : LineStep) :
    Orderly connected past ⟨step, b.perform step⟩ := by
  have wrapped := h.wrapped_iff
  have attempts := h.attempts step
  constructor
  case once => rcases attempts with ⟨level, -, eq⟩ | ⟨-, eq⟩ <;> simp [eq]
  case attempted_iff =>
    intro level
    rcases attempts with ⟨level', due, eq⟩ | ⟨idle, eq⟩
    · simp only [eq, List.map_cons, List.map_nil, List.mem_singleton]
      exact ⟨fun same => same ▸ due, fun due' => due'.unique due⟩
    · simp [eq, idle]
  case failed_iff =>
    rintro a mem
    rcases attempts with ⟨level, -, eq⟩ | ⟨-, eq⟩
    · rw [eq, List.mem_singleton] at mem
      rw [mem, h.wiring]
      rfl
    · simp [eq] at mem
  case failed_keeps =>
    rintro a mem fails
    have uncounted : ¬ Starts ⟨step, b.perform step⟩ ∧ ¬ Stops ⟨step, b.perform step⟩ := by
      rcases attempts with ⟨level, ⟨⟨-, present⟩, ⟨rfl, rfl⟩ | ⟨rfl, -⟩⟩, eq⟩ | ⟨-, eq⟩
      · rcases h.init_reply present with ⟨-, written, -⟩ | ⟨-, reply⟩
        · rw [eq, List.mem_singleton] at mem written
          simp [mem, ← written] at fails
        · simp [Starts, Stops, Wraps, reply]
      · simp [Starts, Stops, Wraps]
      · simp [eq] at mem
    simp [driven_snoc, uncounted]
  case init_iff =>
    rintro rfl
    by_cases gone : Gone past
    · simp [perform, h.gone.mpr gone, Wrapped, gone]
    · rcases h.init_reply gone with ⟨inside, written, reply⟩ | ⟨unwritten, reply⟩
      · simp [reply, inside, written]
      · simp [reply, unwritten]
  case init_else =>
    rintro rfl present unsuccessful
    rcases h.init_reply present with ⟨-, -, reply⟩ | ⟨-, reply⟩
    · exact absurd reply unsuccessful
    · exact reply
  case deinit =>
    rintro rfl present
    obtain ⟨line, has⟩ := Option.ne_none_iff_exists'.mp (mt h.gone.mp present)
    simp [perform, has, LineBench.use, Line.deinit]
  case release =>
    rintro rfl present
    obtain ⟨line, has⟩ := Option.ne_none_iff_exists'.mp (mt h.gone.mp present)
    exact ⟨line.connected, by simp [perform, has, LineBench.use], by simp [wrapped, has]⟩
  case gone =>
    rintro use rfl gone
    have none : b.line = none := h.gone.mpr gone
    simp [perform, none]
  case rewrapped =>
    rintro fresh level rfl
    have apart : ∀ e : LineEntry, e.Wraps → ¬ e.Starts := by
      rintro e ⟨id, rewraps⟩ ⟨inits, -⟩
      simp [rewraps] at inits
    have undriven : ¬ Driven past := fresh.not_since (fun _ wraps => .inr wraps) apart
    rcases attempts with ⟨level', ⟨-, ⟨eq, -⟩ | ⟨-, driven⟩⟩, -⟩ | ⟨-, eq⟩
    · simp at eq
    · exact absurd driven undriven
    · exact eq

theorem leaves_concat (b : LineBench) (steps : List LineStep) (step : LineStep) :
    b.leaves (steps ++ [step]) = ((b.leaves steps).perform step).after := by
  rw [leaves, List.foldl_append]
  rfl

theorem stands_leaves (id : Pin) (connected : Bool) (steps : List LineStep) :
    ((fresh id connected).leaves steps).Stands connected ((fresh id connected).record steps) := by
  induction steps using List.reverseRecOn with
  | nil => exact stands_fresh id connected
  | append_singleton steps step ih =>
    rw [leaves_concat, record_append, record_cons]
    exact ih.step step

/-- Every step of every run on a line, with a pin or without, keeps to the rules, whatever writes fail. -/
theorem line_keeps_to_its_periods (id : Pin) (connected : Bool) (past : List LineStep) (step : LineStep)
    (later : List LineStep) :
    let made := (fresh id connected).record past
    ∃ now rest, (fresh id connected).record (past ++ step :: later) = made ++ now :: rest ∧ now.step = step ∧
      (Wrapped connected made ↔ ∃ line, ((fresh id connected).leaves past).line = some line ∧ line.connected = true) ∧
      Orderly connected made now := by
  have stands := stands_leaves id connected past
  refine ⟨_, _, record_append _ past (step :: later), rfl, stands.wrapped_iff, ?_⟩
  exact stands.orderly step

/-- A failed write ends no period, and neither does a failed `init`; a new line is not driven. -/
example : ((fresh ⟨6, 1⟩ true).run [.use .init, .fail true false, .use (.drive .low), .use .init, .use (.drive .high),
    .use .release, .rewrap ⟨6, 2⟩, .use (.drive .high)]).map LineMoment.attempts =
      [[⟨.low, false⟩], [], [⟨.low, true⟩], [⟨.low, true⟩], [⟨.high, false⟩], [], [], []] := by
  decide

end LineBench

end PeripheralLayer
