import JavaUml.Proofs.Files.Writing
import JavaUml.Session.World

/-!
# How actions end

An action is judged by what it gives and how it fails.  The judgement `Ends` is over all
sound worlds, those whose clock can be told, whose files can be named and whose known folders
are there.  Every action here leaves such a world behind, so the judgements of parts make up
that of the whole, and what was done before a fault does no harm after it.
-/

namespace JavaUml.Session

open Timing (Clock)
open Decimal (Number)

/-! ## Clocks that can be told -/

/-- A reading of a clock: a floating-point number, or the zero of a clock that stands still. -/
def IsReading (number : Number) : Prop :=
  number = .whole 0 ∨ ∃ value, number = .floating value

theorem IsReading.floating? {number : Number} (reading : IsReading number) :
    ∃ value, number.floating? = some value := by
  rcases reading with rfl | ⟨value, rfl⟩
  · exact ⟨.ofInt 0, by decide⟩
  · exact ⟨value, rfl⟩

theorem exists_combine {a b : Number} (operation : Float → Float → Float)
    (first : ∃ value, a.floating? = some value) (second : ∃ value, b.floating? = some value) :
    ∃ result, Number.combine operation a b = some result ∧ IsReading result := by
  obtain ⟨x, x_eq⟩ := first
  obtain ⟨y, y_eq⟩ := second
  rw [Number.combine, x_eq, y_eq]
  exact ⟨_, rfl, .inr ⟨_, rfl⟩⟩

theorem IsReading.milliseconds {started ended : Number} (start : IsReading started)
    (stop : IsReading ended) :
    ∃ elapsed, Timing.milliseconds started ended = .ok elapsed ∧ IsReading elapsed := by
  obtain ⟨difference, difference_eq, difference_told⟩ :
      ∃ difference, ended.sub started = some difference ∧ IsReading difference := by
    have combined := exists_combine (· - ·) stop.floating? start.floating?
    rcases stop with rfl | ⟨x, rfl⟩
    · rcases start with rfl | ⟨y, rfl⟩
      · exact ⟨.whole 0, rfl, .inl rfl⟩
      · exact combined
    · exact combined
  obtain ⟨product, product_eq, product_told⟩ :
      ∃ product, difference.mul (.whole 1000) = some product ∧ IsReading product := by
    rcases difference_told with rfl | ⟨x, rfl⟩
    · exact ⟨.whole 0, rfl, .inl rfl⟩
    · exact exists_combine _ ⟨x, rfl⟩ ⟨.ofInt 1000, by decide⟩
  refine ⟨product, ?_, product_told⟩
  rw [Timing.milliseconds, difference_eq]
  exact congrArg Timing.inRange product_eq

theorem IsReading.twoPlaces? {number : Number} (reading : IsReading number) :
    ∃ text, number.twoPlaces? = some text := by
  obtain ⟨value, value_eq⟩ := reading.floating?
  exact ⟨value.twoPlaces, congrArg (Option.map _) value_eq⟩

theorem IsReading.tookLine {elapsed : Number} (reading : IsReading elapsed) (phase : String) :
    ∃ entry, Timing.tookLine phase elapsed = .ok entry := by
  obtain ⟨text, text_eq⟩ := reading.twoPlaces?
  rw [Timing.tookLine, text_eq]
  exact ⟨_, rfl⟩

theorem IsReading.finishedLine {elapsed : Number} (reading : IsReading elapsed) (level : Level)
    (name : String) : ∃ entry, Timing.finishedLine level name elapsed = .ok entry := by
  obtain ⟨text, text_eq⟩ := reading.twoPlaces?
  rw [Timing.finishedLine, text_eq]
  exact ⟨_, rfl⟩

theorem IsReading.failedLine {elapsed : Number} (reading : IsReading elapsed)
    (name reason : String) : ∃ entry, Timing.failedLine name elapsed reason = .ok entry := by
  obtain ⟨text, text_eq⟩ := reading.twoPlaces?
  rw [Timing.failedLine, text_eq]
  exact ⟨_, rfl⟩

/-! ## Sound worlds -/

/-- A world whose clock can be told, whose files can be named and in which some folders are
known to be. -/
structure Sound (known : List String) (world : World) : Prop where
  steady : ∀ reading ∈ world.clock, IsReading reading
  namable : world.files.isNamable = true
  found : ∀ folder ∈ known, Files.isFolderAt world.files folder = true

theorem Sound.mono {known fewer : List String} {world : World} (sound : Sound known world)
    (among : fewer ⊆ known) : Sound fewer world :=
  ⟨sound.steady, sound.namable, fun folder mem => sound.found folder (among mem)⟩

theorem Sound.learn {known : List String} {world : World} (sound : Sound known world)
    {folder : String} (found : Files.isFolderAt world.files folder = true) :
    Sound (folder :: known) world :=
  ⟨sound.steady, sound.namable, List.forall_mem_cons.2 ⟨found, sound.found⟩⟩

/-- A change that spares the files and keeps the clock keeps a world sound. -/
theorem Sound.change {known : List String} {world after : World} (sound : Sound known world)
    (spares : Files.Spares world.files after.files) (clock : after.clock = world.clock) :
    Sound known after :=
  ⟨clock ▸ sound.steady, spares.namable sound.namable,
    fun folder mem => spares.isFolderAt (sound.found folder mem)⟩

/-- Files that follow from those of one sound world can stand in another one. -/
theorem Sound.setFiles {known : List String} {world current : World} {files : Files.Disk}
    (sound : Sound known world) (spares : Files.Spares world.files files)
    (sound_current : Sound known current) : Sound known { current with files := files } :=
  ⟨sound_current.steady, spares.namable sound.namable,
    fun folder mem => spares.isFolderAt (sound.found folder mem)⟩

theorem Sound.note {known : List String} {world : World} (sound : Sound known world)
    (outside : Outside) (entry : LogEntry) : Sound known (world.note outside entry) := by
  unfold World.note
  split
  · refine sound.change ?_ rfl
    dsimp only
    split
    · exact .refl _
    · split
      · rename_i wrote
        exact Files.spares_appendFile wrote
      · exact .refl _
  · exact sound

theorem Sound.read {known : List String} {world : World} (sound : Sound known world) :
    IsReading world.clock.read.1 ∧ Sound known { world with clock := world.clock.read.2 } := by
  cases clock_eq : world.clock with
  | nil =>
      have steady : ∀ reading ∈ ([] : Clock), IsReading reading := by simp
      exact ⟨.inl rfl, steady, sound.namable, sound.found⟩
  | cons reading later =>
      have steady := sound.steady
      rw [clock_eq, List.forall_mem_cons] at steady
      exact ⟨steady.1, steady.2, sound.namable, sound.found⟩

/-! ## Performing one action after another -/

section Performing

variable {α β : Type} {outside : Outside} {action : Action α} (next : α → Action β)
  {world after : World}

theorem Action.perform_bind :
    (action >>= next).perform outside world =
      ExceptT.bindCont (fun value => next value outside) (action.perform outside world).1
        (action.perform outside world).2 :=
  rfl

theorem Action.perform_get_bind (next : World → Action β) :
    (get >>= next).perform outside world = (next world).perform outside world :=
  rfl

theorem Action.perform_bind_ok {value : α}
    (performed : action.perform outside world = (.ok value, after)) :
    (action >>= next).perform outside world = (next value).perform outside after := by
  rw [perform_bind, performed]
  rfl

theorem Action.perform_bind_error {fault : Fault}
    (performed : action.perform outside world = (.error fault, after)) :
    (action >>= next).perform outside world = (.error fault, after) := by
  rw [perform_bind, performed]
  rfl

end Performing

/-! ## Judging actions -/

/-- In every sound world an action leaves a sound one and has an outcome as told. -/
def Ends {α : Type} (outside : Outside) (known : List String) (action : Action α)
    (gives : α → Prop) (fails : Fault → Prop) : Prop :=
  ∀ world, Sound known world → ∃ outcome after,
    action.perform outside world = (outcome, after) ∧ Sound known after ∧
      Meets gives fails outcome

namespace Ends

variable {α β : Type} {outside : Outside} {known : List String} {action : Action α}
  {gives : α → Prop} {result : β → Prop} {fails : Fault → Prop}

theorem meets (ends : Ends outside known action gives fails) {world : World}
    (sound : Sound known world) : Meets gives fails (action.perform outside world).1 := by
  obtain ⟨outcome, after, performed, -, met⟩ := ends world sound
  rw [performed]
  exact met

theorem pure {value : α} (held : gives value) :
    Ends outside known (Pure.pure value : Action α) gives fails :=
  fun world sound => ⟨.ok value, world, rfl, sound, .ok held⟩

theorem throw {fault : Fault} (held : fails fault) :
    Ends outside known (MonadExcept.throw fault : Action α) gives fails :=
  fun world sound => ⟨.error fault, world, rfl, sound, .error held⟩

theorem bind {next : α → Action β} (first : Ends outside known action gives fails)
    (rest : ∀ value, gives value → Ends outside known (next value) result fails) :
    Ends outside known (action >>= next) result fails := by
  intro world sound
  obtain ⟨outcome, after, performed, sound_after, met⟩ := first world sound
  cases outcome with
  | ok value =>
      rw [Action.perform_bind_ok next performed]
      exact rest value (met.given rfl) after sound_after
  | error fault =>
      rw [Action.perform_bind_error next performed]
      exact ⟨.error fault, after, rfl, sound_after, .error (met.failed rfl)⟩

theorem ofExcept {outcome : Except Fault α} (met : Meets gives fails outcome) :
    Ends outside known (Action.ofExcept outcome) gives fails := by
  cases outcome with
  | ok value => exact pure (met.given rfl)
  | error fault => exact throw (met.failed rfl)

theorem ofOk {outcome : Except Fault α} {value : α} (outcome_eq : outcome = .ok value) :
    Ends outside known (Action.ofExcept outcome) (· = value) fails := by
  rw [outcome_eq]
  exact pure rfl

/-- What is seen in the world may add to the folders that are known. -/
theorem get_bind {next : World → Action β}
    (rest : ∀ world, Sound known world → ∃ more, known ⊆ more ∧ Sound more world ∧
      Ends outside more (next world) result fails) :
    Ends outside known (get >>= next) result fails := by
  intro world sound
  obtain ⟨more, among, sound_more, ends⟩ := rest world sound
  obtain ⟨outcome, after, performed, sound_after, met⟩ := ends world sound_more
  exact ⟨outcome, after, performed, sound_after.mono among, met⟩

theorem read_bind {next : Outside → Action β}
    (rest : Ends outside known (next outside) result fails) :
    Ends outside known (read >>= next) result fails :=
  rest

theorem change {change : World → World}
    (kept : ∀ world, Sound known world → Sound known (change world)) :
    Ends outside known (modify change) (fun _ => True) fails :=
  fun world sound => ⟨.ok (), change world, rfl, kept world sound, .ok trivial⟩

theorem note (entry : LogEntry) :
    Ends outside known (Action.note entry) (fun _ => True) fails :=
  fun world sound =>
    ⟨.ok (), world.note outside entry, rfl, sound.note outside entry, .ok trivial⟩

theorem forM {items : List α} {act : α → Action Unit}
    (each : ∀ item ∈ items, Ends outside known (act item) (fun _ => True) fails) :
    Ends outside known (items.forM act) (fun _ => True) fails := by
  induction items with
  | nil => exact pure trivial
  | cons item items ih =>
      rw [List.forall_mem_cons] at each
      exact each.1.bind fun _ _ => ih each.2

theorem noteAll (entries : List LogEntry) :
    Ends outside known (Action.noteAll entries) (fun _ => True) fails :=
  forM fun entry _ => note entry

theorem print (line : String) :
    Ends outside known (Action.print line) (fun _ => True) fails :=
  change fun _ sound => sound.change (.refl _) rfl

theorem readClock : Ends outside known Action.readClock IsReading fails := by
  intro world sound
  obtain ⟨reading, sound_after⟩ := sound.read
  exact ⟨.ok _, _, rfl, sound_after, .ok reading⟩

theorem attempt (ends : Ends outside known action gives fails) {never : Fault → Prop} :
    Ends outside known (Action.attempt action) (Meets gives fails) never := by
  intro world sound
  obtain ⟨outcome, after, performed, sound_after, met⟩ := ends world sound
  refine ⟨.ok outcome, after, ?_, sound_after, .ok met⟩
  change (Except.ok (action.perform outside world).1, (action.perform outside world).2) = _
  rw [performed]

theorem told {time : Except Timing.Fault α} {value : α} (time_eq : time = .ok value) :
    Ends outside known (Action.told time) (· = value) fails :=
  ofOk (congrArg (Except.mapError Fault.timing) time_eq)

theorem phase (name : String) (ends : Ends outside known action gives fails) :
    Ends outside known (Action.phase name action) gives fails := by
  refine readClock.bind fun started start => ends.attempt.bind fun outcome met =>
    readClock.bind fun ended stop => ?_
  obtain ⟨elapsed, elapsed_eq, reading⟩ := start.milliseconds stop
  obtain ⟨entry, entry_eq⟩ := reading.tookLine name
  refine (told elapsed_eq).bind fun _ same => ?_
  subst same
  exact (told entry_eq).bind fun _ _ => (note _).bind fun _ _ => ofExcept met

theorem timed (name : String) (ends : Ends outside known action gives fails) :
    Ends outside known (Action.timed name action) gives fails := by
  refine readClock.bind fun started start => ends.attempt.bind fun outcome met =>
    readClock.bind fun ended stop => ?_
  obtain ⟨elapsed, elapsed_eq, reading⟩ := start.milliseconds stop
  refine (told elapsed_eq).bind fun _ same => ?_
  subst same
  cases outcome with
  | ok value =>
      obtain ⟨entry, entry_eq⟩ := reading.finishedLine .info name
      exact (told entry_eq).bind fun _ _ => (note _).bind fun _ _ => pure (met.given rfl)
  | error fault =>
      obtain ⟨entry, entry_eq⟩ := reading.failedLine name fault.message
      exact (told entry_eq).bind fun _ _ => (note _).bind fun _ _ => throw (met.failed rfl)

end Ends

end JavaUml.Session
