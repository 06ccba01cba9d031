import Mathlib.Data.Fin.VecNotation
import NorFlash.Proofs.Bench.Crew
import NorFlash.Proofs.Bench.Reports
import NorFlash.Proofs.Engine.Yielding

/-!
# Callers that find the bus held

One caller of an engine holds the bus, and others call the engine while it does.
`Crew.Undisturbed` is the invariant of all their schedules: each of the others makes reports at most
and is sent away when it asks for the bus, and the one that holds it goes on as it would alone.
`busy_callers_change_nothing` is what that comes to for the operations of an engine.
-/

namespace NorFlash

variable {σ γ α : Type} {count : Nat}

/-- The surroundings answer by what is seen of them, and progress reports make no difference to
that. The bus that lies in the lock is seen, and if none does then whoever asks for it is sent away
and nothing changes. -/
structure Environment.Excludes (environment : Environment σ) (seen : σ → γ)
    (slot : γ → Option BusState) : Prop where
  acquire : ∀ patience {first second}, seen first = seen second →
    (environment.acquire patience first).1 = (environment.acquire patience second).1 ∧
      seen (environment.acquire patience first).2 = seen (environment.acquire patience second).2
  release : ∀ bus {first second}, seen first = seen second →
    seen (environment.release bus first) = seen (environment.release bus second)
  arm : ∀ {first second}, seen first = seen second →
    seen (environment.arm first) = seen (environment.arm second)
  await : ∀ patience {first second}, seen first = seen second →
    (environment.await patience first).1 = (environment.await patience second).1 ∧
      seen (environment.await patience first).2 = seen (environment.await patience second).2
  call : ∀ request {first second}, seen first = seen second →
    (environment.call request first).1 = (environment.call request second).1 ∧
      seen (environment.call request first).2 = seen (environment.call request second).2
  report : ∀ count state, seen (environment.report count state) = seen state
  held : ∀ patience state, slot (seen state) = none →
    (environment.acquire patience state).1 = none ∧
      seen (environment.acquire patience state).2 = seen state

/-- A bench is seen but for the progress that was reported to the callers. -/
theorem Bench.excludes_environment :
    Bench.environment.Excludes (fun bench => bench.withReports #[]) Bench.bus where
  acquire _ first second hseen := by
    have hbus := congrArg Bench.bus hseen
    exact ⟨hbus, congrArg (fun bench => { bench with bus := none }) hseen⟩
  release bus _ _ hseen := congrArg (fun bench => { bench with bus := some bus }) hseen
  arm hseen := congrArg Bench.arm hseen
  await patience first second hseen := by
    have hawait := congrArg (Bench.await · patience) hseen
    simp only [await_withReports] at hawait
    exact Prod.mk.inj hawait
  call request first second hseen := by
    have hcall := congrArg (Bench.call · request) hseen
    simp only [call_withReports] at hcall
    exact Prod.mk.inj hcall
  report _ _ := rfl
  held _ bench hbus := by
    obtain ⟨chip, event, deliveries, bus, trace, reports, echo, lastBegun⟩ := bench
    obtain rfl : bus = none := hbus
    exact ⟨rfl, rfl⟩

/-- While the bus is held, the program makes reports at most, and ends with the value. -/
def Program.Yields (value : α) : Program α → Prop
  | done result => result = value
  | report _ next => next.Yields value
  | acquire _ next => next none = done value
  | release .. | arm _ | await .. | call .. => False

/-- The caller tells of its progress, or it is sent away. -/
def Interaction.Yields (interaction : Interaction) : Prop :=
  interaction = .acquire none ∨ ∃ count, interaction = .report count

namespace Program

variable {program : Program α} {value : α}

/-- A program that only asks for the bus yields if it does not get it. -/
theorem Seeks.yields (h : program.Seeks value) : program.Yields value := by
  induction program with
  | acquire patience next ih => exact h
  | report count next ih => exact ih h
  | done | release | arm | await | call => exact absurd h id

/-- A program that yields a value and is done has that value. -/
theorem Yields.eq_of_value? (h : program.Yields value) (hdone : program.value?.isSome = true) :
    program = pure value := by
  cases program with
  | done result => exact congrArg done h
  | _ => cases hdone

/-- A program that makes reports only yields what it ends with. -/
theorem Quiet.yields (h : program.Quiet) (environment : Environment σ) (state : σ) :
    program.Yields (program.run environment state).1 := by
  induction program generalizing state with
  | done value => rfl
  | report count next ih =>
      obtain ⟨_, _, hnext⟩ := h
      exact ih hnext _
  | acquire patience next ih =>
      obtain ⟨_, hacquire, _⟩ := h none
      cases hacquire
  | release bus next ih | arm next ih =>
      obtain ⟨_, hrequest, _⟩ := h
      cases hrequest
  | await patience next ih =>
      obtain ⟨_, hawait, _⟩ := h true
      cases hawait
  | call request next ih =>
      obtain ⟨_, hcall, _⟩ := h (.ok none)
      cases hcall

end Program

namespace Environment.Excludes

variable {environment : Environment σ} {seen : σ → γ} {slot : γ → Option BusState}
  (h : environment.Excludes seen slot) {program rest : Program α} {value : α} {state after : σ}
  {interaction : Interaction}

include h

/-- A program does the same where the same is seen. -/
theorem run_congr (program : Program α) {first second : σ} (hseen : seen first = seen second) :
    (program.run environment first).1 = (program.run environment second).1 ∧
      seen (program.run environment first).2 = seen (program.run environment second).2 ∧
      program.dialogue environment first = program.dialogue environment second := by
  induction program generalizing first second with
  | done value => exact ⟨rfl, hseen, rfl⟩
  | acquire patience next ih =>
      obtain ⟨hgiven, hafter⟩ := h.acquire patience hseen
      obtain ⟨hvalue, hlast, hrest⟩ := ih (environment.acquire patience second).1 hafter
      simp only [Program.run, Program.dialogue, hgiven]
      exact ⟨hvalue, hlast, congrArg (List.cons _) hrest⟩
  | release bus next ih =>
      obtain ⟨hvalue, hlast, hrest⟩ := ih (h.release bus hseen)
      exact ⟨hvalue, hlast, congrArg (List.cons _) hrest⟩
  | arm next ih =>
      obtain ⟨hvalue, hlast, hrest⟩ := ih (h.arm hseen)
      exact ⟨hvalue, hlast, congrArg (List.cons _) hrest⟩
  | await patience next ih =>
      obtain ⟨harrived, hafter⟩ := h.await patience hseen
      obtain ⟨hvalue, hlast, hrest⟩ := ih (environment.await patience second).1 hafter
      simp only [Program.run, Program.dialogue, harrived]
      exact ⟨hvalue, hlast, congrArg (List.cons _) hrest⟩
  | call request next ih =>
      obtain ⟨hreply, hafter⟩ := h.call request hseen
      obtain ⟨hvalue, hlast, hrest⟩ := ih (environment.call request second).1 hafter
      simp only [Program.run, Program.dialogue, hreply]
      exact ⟨hvalue, hlast, congrArg (List.cons _) hrest⟩
  | report count next ih =>
      have hreported : seen (environment.report count first) =
          seen (environment.report count second) := by
        rw [h.report, h.report, hseen]
      obtain ⟨hvalue, hlast, hrest⟩ := ih hreported
      exact ⟨hvalue, hlast, congrArg (List.cons _) hrest⟩

/-- A caller that finds the bus held changes nothing in its next step. -/
theorem yields_advance (hyields : program.Yields value) (hheld : slot (seen state) = none)
    (hadvance : program.advance environment state = some (interaction, rest, after)) :
    rest.Yields value ∧ seen after = seen state ∧ interaction.Yields := by
  cases program with
  | acquire patience next =>
      cases hadvance
      obtain ⟨hgiven, hseen⟩ := h.held patience state hheld
      rw [hgiven, show next none = .done value from hyields]
      exact ⟨rfl, hseen, .inl rfl⟩
  | report count next =>
      cases hadvance
      exact ⟨hyields, h.report count state, .inr ⟨count, rfl⟩⟩
  | done result => cases hadvance
  | release | arm | await | call => exact absurd hyields id

/-- A caller that finds the bus held changes nothing until it is done. -/
theorem run_yields (hyields : program.Yields value) (hheld : slot (seen state) = none) :
    (program.run environment state).1 = value ∧
      seen (program.run environment state).2 = seen state := by
  induction program generalizing state with
  | done result => exact ⟨hyields, rfl⟩
  | acquire patience next ih =>
      obtain ⟨hgiven, hseen⟩ := h.held patience state hheld
      simp only [Program.run, hgiven]
      rw [show next none = .done value from hyields]
      exact ⟨rfl, hseen⟩
  | report count next ih =>
      have hseen := h.report count state
      obtain ⟨hvalue, hlast⟩ := ih hyields (hseen ▸ hheld)
      exact ⟨hvalue, hlast.trans hseen⟩
  | release | arm | await | call => exact absurd hyields id

end Environment.Excludes

namespace Crew

/-- Whenever another member than the holder makes a request, the bus is held. -/
def HeldBy (environment : Environment σ) (held : σ → Prop) (holder : Fin count) :
    Crew σ α count → List (Fin count) → Prop
  | _, [] => True
  | crew, who :: rest =>
      (who ≠ holder → held crew.state) ∧
        HeldBy environment held holder (crew.pick environment who) rest

/-- What a member has said. -/
def saidBy (crew : Crew σ α count) (who : Fin count) : Dialogue :=
  (crew.said.filter (·.1 = who)).map Prod.snd

/-- The others yield and end with their values, and the holder goes on as its program does alone. -/
structure Undisturbed (environment : Environment σ) (seen : σ → γ) (holder : Fin count)
    (values : Fin count → α) (program : Program α) (state : σ) (crew : Crew σ α count) :
    Prop where
  yields : ∀ who, who ≠ holder → (crew.left who).Yields (values who)
  said : ∀ who, who ≠ holder → ∀ interaction ∈ crew.saidBy who, interaction.Yields
  value : ((crew.left holder).run environment crew.state).1 = (program.run environment state).1
  ends : seen ((crew.left holder).run environment crew.state).2 =
    seen (program.run environment state).2
  dialogue : crew.saidBy holder ++ (crew.left holder).dialogue environment crew.state =
    program.dialogue environment state

variable {environment : Environment σ} {seen : σ → γ} {slot : γ → Option BusState}
  {held : σ → Prop} {holder who : Fin count} {values : Fin count → α} {program rest : Program α}
  {state after : σ} {interaction : Interaction} {crew : Crew σ α count}

/-- Callers of which all but one yield leave that one undisturbed when they set out. -/
theorem undisturbed_assemble (environment : Environment σ) (seen : σ → γ)
    {programs : Fin count → Program α} (state : σ)
    (hyields : ∀ who, who ≠ holder → (programs who).Yields (values who)) :
    (assemble state programs).Undisturbed environment seen holder values (programs holder)
      state where
  yields := hyields
  said _ _ _ hmem := by cases hmem
  value := rfl
  ends := rfl
  dialogue := rfl

/-- What a schedule says of who holds the bus, its beginning says too. -/
theorem HeldBy.of_append {before : List (Fin count)} {later : List (Fin count)}
    (h : crew.HeldBy environment held holder (before ++ who :: later)) :
    crew.HeldBy environment held holder before ∧
      (who ≠ holder → held (crew.interleave environment before).state) := by
  induction before generalizing crew with
  | nil => exact ⟨trivial, h.1⟩
  | cons first rest ih =>
      obtain ⟨hrest, hwho⟩ := ih h.2
      exact ⟨⟨h.1, hrest⟩, hwho⟩

/-- A turn puts in the crew's place what the member leaves and says. -/
theorem pick_eq (hadvance : (crew.left who).advance environment crew.state =
      some (interaction, rest, after)) :
    crew.pick environment who =
      ⟨after, Function.update crew.left who rest, crew.said ++ [(who, interaction)]⟩ := by
  unfold pick
  rw [hadvance]

/-- A turn adds to what its member has said, and to nobody else's. -/
theorem saidBy_concat (left : Fin count → Program α) (other : Fin count) :
    Crew.saidBy ⟨after, left, crew.said ++ [(who, interaction)]⟩ other =
      crew.saidBy other ++ if who = other then [interaction] else [] := by
  by_cases hother : who = other <;> simp [saidBy, List.filter_append, hother]

/-- The next request of the holder is the one it would make alone. -/
theorem Undisturbed.pick_holder
    (h : crew.Undisturbed environment seen holder values program state) :
    (crew.pick environment holder).Undisturbed environment seen holder values program state := by
  cases hadvance : (crew.left holder).advance environment crew.state with
  | none =>
      unfold pick
      rwa [hadvance]
  | some next =>
      obtain ⟨interaction, rest, after⟩ := next
      obtain ⟨hrun, hdialogue⟩ := Program.run_of_advance hadvance
      rw [pick_eq hadvance]
      refine ⟨fun other hother => ?_, fun other hother => ?_, ?_, ?_, ?_⟩
      · simpa [hother] using h.yields other hother
      · rw [saidBy_concat, if_neg (Ne.symm hother), List.append_nil]
        exact h.said other hother
      · simpa [← hrun] using h.value
      · simpa [← hrun] using h.ends
      · simpa [saidBy_concat, ← hdialogue] using h.dialogue

/-- The next request of another member makes no difference to the holder. -/
theorem Undisturbed.pick_other (hexcludes : environment.Excludes seen slot)
    (h : crew.Undisturbed environment seen holder values program state) (hwho : who ≠ holder)
    (hheld : slot (seen crew.state) = none) :
    (crew.pick environment who).Undisturbed environment seen holder values program state ∧
      seen (crew.pick environment who).state = seen crew.state := by
  cases hadvance : (crew.left who).advance environment crew.state with
  | none =>
      unfold pick
      rw [hadvance]
      exact ⟨h, rfl⟩
  | some next =>
      obtain ⟨interaction, rest, after⟩ := next
      obtain ⟨hrest, hseen, hsaid⟩ := hexcludes.yields_advance (h.yields who hwho) hheld hadvance
      obtain ⟨hvalue, hends, hdialogue⟩ := hexcludes.run_congr (crew.left holder) hseen
      rw [pick_eq hadvance]
      refine ⟨⟨fun other hother => ?_, fun other hother => ?_, ?_, ?_, ?_⟩, hseen⟩
      · by_cases hsame : other = who
        · subst hsame
          simpa using hrest
        · simpa [hsame] using h.yields other hother
      · rw [saidBy_concat]
        intro said hmem
        rcases List.mem_append.mp hmem with hbefore | hlast
        · exact h.said other hother said hbefore
        · split at hlast
          · rw [List.mem_singleton.mp hlast]
            exact hsaid
          · cases hlast
      · simpa [Ne.symm hwho, hvalue] using h.value
      · simpa [Ne.symm hwho, hends] using h.ends
      · simpa [saidBy_concat, hwho, Ne.symm hwho, hdialogue] using h.dialogue

/-- Nothing disturbs the holder while it holds the bus. -/
theorem Undisturbed.interleave (hexcludes : environment.Excludes seen slot)
    (h : crew.Undisturbed environment seen holder values program state)
    {schedule : List (Fin count)}
    (hheld : crew.HeldBy environment (fun state => slot (seen state) = none) holder schedule) :
    (crew.interleave environment schedule).Undisturbed environment seen holder values program
      state := by
  induction schedule generalizing crew with
  | nil => exact h
  | cons who rest ih =>
      by_cases hwho : who = holder
      · subst hwho
        exact ih h.pick_holder hheld.2
      · exact ih (h.pick_other hexcludes hwho (hheld.1 hwho)).1 hheld.2

end Crew

namespace Engine

variable {environment : Environment σ} {seen : σ → γ} {slot : γ → Option BusState}

/-- What an operation yields: what it ends with alone if that is a rejection or if it is for an
empty range, and otherwise that the bus is not to be had. -/
theorem yields_perform (engine : Engine) (operation : Operation) (environment : Environment σ)
    (state : σ) :
    let alone := ((engine.perform operation).run environment state).1
    ∃ outcome, (engine.perform operation).Yields outcome ∧
      (alone.Rejected ∨ operation.count? = some 0 → outcome = alone) ∧
      (¬alone.Rejected → operation.count? ≠ some 0 →
        outcome = ⟨.error .busy, operation.buffer?⟩) := by
  intro alone
  by_cases hempty : operation.count? = some 0
  · exact ⟨alone, (engine.quiet_perform_of_empty hempty).yields environment state, fun _ => rfl,
      fun _ hsome => absurd hempty hsome⟩
  · obtain ⟨value, hvalue, hrejected⟩ | hnone | hseeks := engine.screened_perform operation
    case inl =>
      have halone : alone = value := by
        simp only [alone, hvalue]
        rfl
      refine ⟨value, by rw [hvalue]; rfl, fun _ => halone.symm, fun hnot => ?_⟩
      exact absurd (halone ▸ hrejected) hnot
    case inr.inl => exact absurd hnone hempty
    case inr.inr =>
      refine ⟨_, hseeks.yields, fun h => ?_, fun _ _ => rfl⟩
      -- What seeks the bus does not end at once, so it is not rejected.
      obtain ⟨value, hvalue⟩ | hproceeds := engine.checked_perform operation
      · rw [hvalue] at hseeks
        exact absurd hseeks id
      · obtain ⟨_, -, -, hnot⟩ := Program.Follows.run hproceeds environment state
        exact absurd (h.resolve_right hempty) hnot

/-- In any surroundings and for any schedule of callers of one engine: while one of them holds the
bus, none of the others makes a call to the controller, uses the completion event or the bus, or
changes anything that is seen of the surroundings. A call that another makes ends as it does alone
if it is rejected or for an empty range, and is told that the bus is busy otherwise. The caller that
holds the bus ends as it does alone, with the same dialogue and the same surroundings. -/
theorem busy_callers_change_nothing (hexcludes : environment.Excludes seen slot) (engine : Engine)
    (operations : Fin count → Operation) (holder : Fin count) (state : σ)
    (schedule : List (Fin count))
    (hheld : (Crew.assemble state fun who => engine.perform (operations who)).HeldBy environment
      (fun state => slot (seen state) = none) holder schedule) :
    let start := Crew.assemble state fun who => engine.perform (operations who)
    let crew := start.interleave environment schedule
    let alone := fun who => (engine.perform (operations who)).run environment state
    let rest := fun who => (crew.left who).run environment crew.state
    (∀ who, who ≠ holder →
      (∀ interaction ∈ crew.saidBy who,
        interaction = .acquire none ∨ ∃ count, interaction = .report count) ∧
      (slot (seen crew.state) = none ∨ (crew.left who).value?.isSome →
        ((alone who).1.Rejected ∨ (operations who).count? = some 0 →
          (rest who).1 = (alone who).1) ∧
        (¬(alone who).1.Rejected → (operations who).count? ≠ some 0 →
          (rest who).1 = ⟨.error .busy, (operations who).buffer?⟩) ∧
        seen (rest who).2 = seen crew.state)) ∧
    (∀ before who later, schedule = before ++ who :: later → who ≠ holder →
      seen (start.interleave environment (before ++ [who])).state =
        seen (start.interleave environment before).state) ∧
    (rest holder).1 = (alone holder).1 ∧ seen (rest holder).2 = seen (alone holder).2 ∧
    crew.saidBy holder ++ (crew.left holder).dialogue environment crew.state =
      (engine.perform (operations holder)).dialogue environment state := by
  intro start crew alone rest
  choose outcomes hyields hsame hbusy using fun who =>
    engine.yields_perform (operations who) environment state
  have hstart : start.Undisturbed environment seen holder outcomes
      (engine.perform (operations holder)) state :=
    Crew.undisturbed_assemble environment seen state fun who _ => hyields who
  have hcrew : crew.Undisturbed environment seen holder outcomes
      (engine.perform (operations holder)) state := hstart.interleave hexcludes hheld
  refine ⟨fun who hwho => ⟨hcrew.said who hwho, fun hend => ?_⟩,
    fun before who later hschedule hwho => ?_, hcrew.value, hcrew.ends, hcrew.dialogue⟩
  · have hrest : (rest who).1 = outcomes who ∧ seen (rest who).2 = seen crew.state := by
      obtain hnone | hdone := hend
      · exact hexcludes.run_yields (hcrew.yields who hwho) hnone
      · simp only [rest, (hcrew.yields who hwho).eq_of_value? hdone]
        exact ⟨rfl, rfl⟩
    rw [hrest.1]
    exact ⟨hsame who, hbusy who, hrest.2⟩
  · obtain ⟨hbefore, hnone⟩ := Crew.HeldBy.of_append (hschedule ▸ hheld)
    have hundisturbed := hstart.interleave hexcludes hbefore
    have hlast : start.interleave environment (before ++ [who]) =
        (start.interleave environment before).pick environment who := List.foldl_append
    rw [hlast]
    exact (hundisturbed.pick_other hexcludes hwho (hnone hwho)).2

/-- One caller writes a byte and another reads one in the middle of that. The reader is told that
the bus is busy, and the writer ends as it does alone. -/
theorem busy_callers_change_nothing_of_read_during_write :
    let bench := Bench.ofChip (Chip.fresh ⟨0xEF, 0x4015⟩)
    let ready := ((Engine.fresh .standard).serve .bringUp).run Bench.environment bench
    let operations : Fin 2 → Operation := ![.write 0 [0], .read 0 1]
    let crew := (Crew.assemble ready.2 fun who => ready.1.2.perform (operations who)).interleave
      Bench.environment [0, 0, 0, 1]
    crew.state.bus = none ∧
      ((crew.left 1).run Bench.environment crew.state).1 = ⟨.error .busy, none⟩ ∧
      ((crew.left 0).run Bench.environment crew.state).1 =
        ((ready.1.2.perform (.write 0 [0])).run Bench.environment ready.2).1 := by
  intro bench ready operations crew
  have hheld : (Crew.assemble ready.2 fun who => ready.1.2.perform (operations who)).HeldBy
      Bench.environment (fun state => (state.withReports #[]).bus = none) 0 [0, 0, 0, 1] :=
    ⟨nofun, nofun, nofun, fun _ => by decide +kernel, trivial⟩
  have hnone : crew.state.bus = none := by decide +kernel
  have halone : ((ready.1.2.perform (operations 1)).run Bench.environment
      ready.2).1.result.isOk = true := by decide +kernel
  clear_value ready
  have hpasses : ¬((ready.1.2.perform (operations 1)).run Bench.environment
      ready.2).1.Rejected := by
    rintro ⟨fault, hfault, -⟩
    rw [hfault] at halone
    cases halone
  obtain ⟨hothers, -, hholder, -⟩ := busy_callers_change_nothing Bench.excludes_environment
    ready.1.2 operations 0 ready.2 [0, 0, 0, 1] hheld
  obtain ⟨-, hended⟩ := hothers 1 (by decide)
  obtain ⟨-, hbusy, -⟩ := hended (.inl hnone)
  exact ⟨hnone, hbusy hpasses (by decide), hholder⟩

end Engine

end NorFlash
