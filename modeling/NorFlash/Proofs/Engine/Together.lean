import Mathlib.Data.Fin.VecNotation
import NorFlash.Proofs.Bench.Crew
import NorFlash.Proofs.Chip.Carried

/-!
# Writing together

Several callers write through one engine at once. `Standing` is the invariant of all their
schedules: at most one of them is in the middle of a turn, and the calls that have reached the chip
are those of the turns begun, one turn after the other. `writes_together` says what that comes to
once every caller has succeeded: the order of the pages makes no difference to the memory, and every
page was programmed with the write enable that was sent for it.
-/

namespace NorFlash

variable {count : Nat}

/-- One page of one caller, and the bus that the caller was given for it. -/
structure Turn (count : Nat) where
  who : Fin count
  bus : BusState
  piece : PagePiece

namespace Turn

/-- The calls of a turn. -/
def calls (turn : Turn count) : List (Fin count × BusCall) :=
  ((Line.turn turn.bus turn.piece).filterMap Line.call?).map (turn.who, ·)

end Turn

/-- The calls in what a crew has said. -/
def Crew.calls (said : List (Fin count × Interaction)) : List (Fin count × BusCall) :=
  said.filterMap fun
    | (who, .call request _) => some (who, request)
    | _ => none

/-- What is known once the turns were begun, but for the calls still owed in the last one: each
caller has the rest of its pages to do, and the chip has carried out the calls that were made. -/
structure Recorded (width : BusWidth) (chip : Chip) (pages : Fin count → List PagePiece)
    (turns : List (Turn count)) (todo : Fin count → List PagePiece)
    (owed : List (Fin count × BusCall)) (after : Chip)
    (calls : List (Fin count × BusCall)) : Prop where
  pages_eq : ∀ who, (turns.filter (·.who = who)).map Turn.piece ++ todo who = pages who
  width_eq : ∀ turn ∈ turns, turn.bus.width = width
  calls_eq : calls ++ owed = turns.flatMap Turn.calls
  carried : (calls.map Prod.snd).foldlM Chip.carry? chip = some after

/-- How things stand between two interactions. -/
inductive Standing (width : BusWidth) (chip : Chip) (pages : Fin count → List PagePiece)
    (phases : Fin count → Stage) (bench : Bench) (said : List (Fin count × Interaction)) :
    Prop where
  /-- Nobody holds the bus. -/
  | free (turns todo bus) (hphases : ∀ who, phases who = .working [] (todo who))
      (hbus : bench.bus = some bus) (hwidth : bus.width = width)
      (hrecorded : Recorded width chip pages turns todo [] bench.chip (Crew.calls said))
  /-- One caller holds the bus, and has some lines left before it gives the bus back. -/
  | held (turns todo holder lines)
      (hholder : phases holder = .working (lines ++ [.release ⟨width, false⟩]) (todo holder))
      (hothers : ∀ who, who ≠ holder → phases who = .working [] (todo who))
      (hbus : bench.bus = none) (hlines : ∀ line ∈ lines, ∀ bus, line ≠ Line.release bus)
      (hrecorded : Recorded width chip pages turns todo
        ((lines.filterMap Line.call?).map (holder, ·)) bench.chip (Crew.calls said))
  /-- Some caller has failed. -/
  | failed (who) (hfailed : phases who = .failed)

section Steps

variable {width : BusWidth} {chip : Chip} {pages : Fin count → List PagePiece}
  {phases : Fin count → Stage} {bench after : Bench} {said : List (Fin count × Interaction)}
  {who : Fin count} {interaction : Interaction} {stage : Stage} {turns : List (Turn count)}
  {todo : Fin count → List PagePiece}

/-- A call by anyone is added to the calls. -/
theorem Crew.calls_append_call (said : List (Fin count × Interaction)) (who : Fin count)
    (request : BusCall) (reply : Reply) :
    calls (said ++ [(who, .call request reply)]) = calls said ++ [(who, request)] := by
  simp [calls]

/-- Nothing else that is said is a call. -/
theorem Crew.calls_append_other (said : List (Fin count × Interaction)) (who : Fin count)
    (h : ∀ request reply, interaction ≠ .call request reply) :
    calls (said ++ [(who, interaction)]) = calls said := by
  cases interaction with
  | call request reply => exact absurd rfl (h request reply)
  | _ => simp [calls]

/-- What neither moves a caller nor reaches the bus or the chip makes no difference. -/
theorem Standing.stay (h : Standing width chip pages phases bench said)
    (hstage : stage = phases who) (hbus : after.bus = bench.bus) (hchip : after.chip = bench.chip)
    (hcall : ∀ request reply, interaction ≠ .call request reply) :
    Standing width chip pages (Function.update phases who stage) after
      (said ++ [(who, interaction)]) := by
  have hcalls := Crew.calls_append_other said who hcall
  rw [hstage, Function.update_eq_self]
  cases h with
  | free turns todo bus hphases hfree hwidth hrecorded =>
      refine .free turns todo bus hphases (hbus.trans hfree) hwidth ?_
      rwa [hchip, hcalls]
  | held turns todo holder lines hholder hothers hheld hlines hrecorded =>
      refine .held turns todo holder lines hholder hothers (hbus.trans hheld) hlines ?_
      rwa [hchip, hcalls]
  | failed other hfailed => exact .failed other hfailed

/-- A caller that takes the bus begins its next turn. -/
theorem Recorded.begin {piece : PagePiece} {rest : List PagePiece} {bus : BusState} {now : Chip}
    {calls : List (Fin count × BusCall)}
    (h : Recorded width chip pages turns todo [] now calls) (htodo : todo who = piece :: rest)
    (hwidth : bus.width = width) :
    Recorded width chip pages (turns ++ [⟨who, bus, piece⟩]) (Function.update todo who rest)
      (((Line.turn bus piece).filterMap Line.call?).map (who, ·)) now calls := by
  refine ⟨fun other => ?_, fun turn hturn => ?_, ?_, h.carried⟩
  · by_cases hother : other = who
    · subst hother
      rw [← h.pages_eq other, htodo]
      simp
    · rw [← h.pages_eq other, Function.update_of_ne hother]
      simp [Ne.symm hother]
  · rcases List.mem_append.mp hturn with hold | hnew
    · exact h.width_eq turn hold
    · exact List.mem_singleton.mp hnew ▸ hwidth
  · have hcalls := h.calls_eq
    rw [List.append_nil] at hcalls
    rw [List.flatMap_append, ← hcalls]
    simp [Turn.calls]

/-- A call that is made as it is owed is carried out by the chip. -/
theorem Recorded.carry {request : BusCall} {owed : List (Fin count × BusCall)} {now later : Chip}
    {calls : List (Fin count × BusCall)}
    (h : Recorded width chip pages turns todo ((who, request) :: owed) now calls)
    (hcarry : now.carry? request = some later) :
    Recorded width chip pages turns todo owed later (calls ++ [(who, request)]) := by
  refine ⟨h.pages_eq, h.width_eq, ?_, ?_⟩
  · rw [← h.calls_eq, List.append_assoc]
    rfl
  · rw [List.map_append, List.foldlM_append, h.carried]
    simpa using hcarry

/-- While nobody holds the bus, a caller can only take it. -/
theorem Standing.step_free {bus : BusState} (hphases : ∀ who, phases who = .working [] (todo who))
    (hbus : bench.bus = some bus) (hwidth : bus.width = width)
    (hrecorded : Recorded width chip pages turns todo [] bench.chip (Crew.calls said))
    (hnext : (phases who).next interaction = some stage)
    (hmove : Bench.environment.Says bench interaction after) :
    Standing width chip pages (Function.update phases who stage) after
      (said ++ [(who, interaction)]) := by
  -- Whoever does not hold the bus says nothing that the others could notice, but to take it.
  cases hmove with
  | acquire patience =>
      have hgiven : (Bench.environment.acquire patience bench).1 = some bus := hbus
      rw [hphases, hgiven] at hnext
      cases htodo : todo who with
      | nil => simp [htodo, Stage.next] at hnext
      | cons piece rest =>
          rw [htodo] at hnext
          obtain rfl : Stage.working (Line.turn bus piece) rest = stage := Option.some.inj hnext
          refine .held (turns ++ [⟨who, bus, piece⟩]) (Function.update todo who rest) who
            (Line.body bus piece) ?_ ?_ rfl (fun _ hline _ => Line.ne_release_of_mem_body hline) ?_
          · simp [Line.turn, hwidth]
          · intro other hother
            simp [hother, hphases]
          · rw [Crew.calls_append_other _ _ (by simp)]
            exact Line.calls_turn bus piece ▸ hrecorded.begin htodo hwidth
  | report reported =>
      have hstage : stage = phases who := Stage.eq_of_next_report hnext
      exact Standing.stay (.free turns todo bus hphases hbus hwidth hrecorded) hstage rfl rfl
        (by simp)
  | release | arm | await | call => simp [hphases, Stage.next] at hnext

/-- While another caller holds the bus, one that asks for it is sent away. -/
theorem Standing.step_other
    (h : Standing width chip pages phases bench said) (hbus : bench.bus = none)
    (hphase : phases who = .working [] (todo who))
    (hnext : (phases who).next interaction = some stage)
    (hmove : Bench.environment.Says bench interaction after) :
    Standing width chip pages (Function.update phases who stage) after
      (said ++ [(who, interaction)]) := by
  cases hmove with
  | acquire patience =>
      have hgiven : (Bench.environment.acquire patience bench).1 = none := hbus
      rw [hphase, hgiven] at hnext
      obtain rfl : Stage.failed = stage := by
        cases htodo : todo who <;> simpa [htodo, Stage.next] using hnext
      exact .failed who (Function.update_self ..)
  | report reported =>
      exact h.stay (Stage.eq_of_next_report hnext) rfl rfl (by simp)
  | release | arm | await | call => simp [hphase, Stage.next] at hnext

/-- A call that meets a line is the one that was to be made, and the chip carries it out. -/
theorem carry?_of_meets {line : Line} {request : BusCall} {now : Chip}
    (h : line.meets (.call request (now.answer request).1.reply) = true) :
    line.call? = some request ∧ now.carry? request = some (now.answer request).2 := by
  cases line with
  | abort =>
      obtain rfl : request = .abort := by simpa [Line.meets] using h
      exact ⟨rfl, rfl⟩
  | call other =>
      obtain ⟨rfl, hok⟩ : request = other ∧ (now.answer request).1.reply.isOk = true := by
        simpa [Line.meets] using h
      exact ⟨rfl, Chip.carry?_eq_some.mpr ⟨hok, rfl⟩⟩
  | arm | arrival | release => simp [Line.meets] at h

section Held

variable {holder : Fin count} {lines : List Line} {line : Line}

/-- The caller that holds the bus says its next line. -/
theorem Standing.step_line
    (hothers : ∀ who, who ≠ holder → phases who = .working [] (todo who))
    (hbus : bench.bus = none) (hlines : ∀ other ∈ line :: lines, ∀ bus, other ≠ Line.release bus)
    (hrecorded : Recorded width chip pages turns todo
      (((line :: lines).filterMap Line.call?).map (holder, ·)) bench.chip (Crew.calls said))
    (hmove : Bench.environment.Says bench interaction after)
    (hmeets : line.meets interaction = true) :
    Standing width chip pages
      (Function.update phases holder (.working (lines ++ [.release ⟨width, false⟩]) (todo holder)))
      after (said ++ [(holder, interaction)]) := by
  have hrest : ∀ other ∈ lines, ∀ bus, other ≠ Line.release bus :=
    fun other hother => hlines other (List.mem_cons_of_mem line hother)
  have hmoved : ∀ who, who ≠ holder → Function.update phases holder
      (.working (lines ++ [.release ⟨width, false⟩]) (todo holder)) who = .working [] (todo who) :=
    fun who hwho => (Function.update_of_ne hwho ..).trans (hothers who hwho)
  -- Only a call goes from those that are owed to those that were made.
  have hsilent : line.call? = none → Recorded width chip pages turns todo
      ((lines.filterMap Line.call?).map (holder, ·)) bench.chip (Crew.calls said) := by
    intro hline
    rwa [List.filterMap_cons_none hline] at hrecorded
  cases hmove with
  | call request =>
      obtain ⟨hline, hcarry⟩ := carry?_of_meets hmeets
      rw [List.filterMap_cons_some hline, List.map_cons] at hrecorded
      refine .held turns todo holder lines (Function.update_self ..) hmoved
        ((Bench.bus_call bench request).trans hbus) hrest ?_
      rw [Crew.calls_append_call]
      exact (Bench.chip_call bench request).symm ▸ hrecorded.carry hcarry
  | arm =>
      obtain rfl : line = .arm := by cases line <;> simp [Line.meets] at hmeets ⊢
      refine .held turns todo holder lines (Function.update_self ..) hmoved hbus hrest ?_
      rw [Crew.calls_append_other _ _ (by simp)]
      exact hsilent rfl
  | await patience =>
      obtain rfl : line = .arrival := by cases line <;> simp [Line.meets] at hmeets ⊢
      refine .held turns todo holder lines (Function.update_self ..) hmoved
        ((Bench.bus_await bench patience).trans hbus) hrest ?_
      rw [Crew.calls_append_other _ _ (by simp)]
      exact (Bench.chip_await bench patience).symm ▸ hsilent rfl
  | release given =>
      cases line with
      | release bus => exact absurd rfl (hlines _ List.mem_cons_self bus)
      | _ => simp [Line.meets] at hmeets
  | acquire | report => cases line <;> simp [Line.meets] at hmeets

/-- The caller that holds the bus gives it back. -/
theorem Standing.step_release
    (hothers : ∀ who, who ≠ holder → phases who = .working [] (todo who))
    (hrecorded : Recorded width chip pages turns todo [] bench.chip (Crew.calls said))
    (hmove : Bench.environment.Says bench interaction after)
    (hmeets : (Line.release ⟨width, false⟩).meets interaction = true) :
    Standing width chip pages (Function.update phases holder (.working [] (todo holder))) after
      (said ++ [(holder, interaction)]) := by
  cases hmove with
  | release given =>
      obtain rfl : given = ⟨width, false⟩ := by simpa [Line.meets] using hmeets
      refine .free turns todo ⟨width, false⟩ (fun who => ?_) rfl rfl ?_
      · by_cases hwho : who = holder
        · subst hwho
          exact Function.update_self ..
        · exact (Function.update_of_ne hwho ..).trans (hothers who hwho)
      · rwa [Crew.calls_append_other _ _ (by simp)]
  | acquire | arm | await | call | report => simp [Line.meets] at hmeets

end Held

/-- Whatever a caller says that the rule allows, things stand in order afterwards. -/
theorem Standing.step (h : Standing width chip pages phases bench said)
    (hnext : (phases who).next interaction = some stage)
    (hmove : Bench.environment.Says bench interaction after) :
    Standing width chip pages (Function.update phases who stage) after
      (said ++ [(who, interaction)]) := by
  cases h with
  | free turns todo bus hphases hbus hwidth hrecorded =>
      exact .step_free hphases hbus hwidth hrecorded hnext hmove
  | held turns todo holder lines hholder hothers hbus hlines hrecorded =>
      by_cases hwho : who = holder
      · subst hwho
        by_cases hreport : ∃ reported, interaction = .report reported
        · obtain ⟨reported, rfl⟩ := hreport
          cases hmove with
          | report =>
              exact Standing.stay (.held turns todo who lines hholder hothers hbus hlines hrecorded)
                (Stage.eq_of_next_report hnext) rfl rfl (by simp)
        · have hspoken : ∀ reported, interaction ≠ .report reported :=
            fun reported h => hreport ⟨reported, h⟩
          -- The next line is one of the turn, or it gives the bus back.
          cases lines with
          | nil =>
              rw [hholder, List.nil_append, Stage.next_working hspoken] at hnext
              obtain rfl := Option.some.inj hnext
              split
              · rename_i hmeets
                exact .step_release hothers hrecorded hmove hmeets
              · exact .failed who (Function.update_self ..)
          | cons line rest =>
              rw [hholder, List.cons_append, Stage.next_working hspoken] at hnext
              obtain rfl := Option.some.inj hnext
              split
              · rename_i hmeets
                exact .step_line hothers hbus hlines hrecorded hmove hmeets
              · exact .failed who (Function.update_self ..)
      · exact .step_other (.held turns todo holder lines hholder hothers hbus hlines hrecorded) hbus
          (hothers who hwho) hnext hmove
  | failed other hfailed =>
      by_cases hother : who = other
      · subst hother
        rw [hfailed, Stage.next_failed] at hnext
        obtain rfl := Option.some.inj hnext
        exact .failed who (Function.update_self ..)
      · exact .failed other ((Function.update_of_ne (Ne.symm hother) ..).trans hfailed)

/-- When every caller has come to its end, nobody holds the bus and nothing is left to do. -/
theorem Standing.recorded (h : Standing width chip pages phases bench said)
    (hended : ∀ who, phases who = .working [] []) :
    ∃ turns, Recorded width chip pages turns (fun _ => []) [] bench.chip (Crew.calls said) := by
  cases h with
  | free turns todo bus hphases hbus hwidth hrecorded =>
      obtain rfl : todo = fun _ => [] := funext fun who => by
        have hnothing := (hphases who).symm.trans (hended who)
        injection hnothing
      exact ⟨turns, hrecorded⟩
  | held turns todo holder lines hholder =>
      have hnothing := hholder.symm.trans (hended holder)
      simp at hnothing
  | failed who hfailed => cases hfailed.symm.trans (hended who)

end Steps

/-! ## What the turns do to the chip -/

/-- The page lies in memory and can be addressed. -/
def PagePiece.Fits (size : Nat) (piece : PagePiece) : Prop :=
  piece.Within 0 size ∧ (UInt32.ofNat piece.address).toNat = piece.address

/-- A page that is programmed leaves of each byte what its data does. -/
theorem Chip.Programmed.byteAt {piece : PagePiece} {before after : Chip}
    (h : Programmed piece before after) (hfits : piece.Fits before.memory.size) :
    after.memory.size = before.memory.size ∧ ∀ place < before.memory.size,
      after.memory.byteAt place =
        before.memory.byteAt place &&& Bytes.maskAt piece.address piece.bytes place := by
  obtain ⟨hwithin, haddress⟩ := hfits
  have hmasked := Memory.masked_program before.memory hwithin.page hwithin.last
  rw [h.memory, haddress]
  exact ⟨hmasked.size, fun place hplace => hmasked.byteAt_mask hplace⟩

/-- What the turns of a crew have done to a chip. -/
structure TurnsTaken (turns : List (Turn count)) (before after : Chip) : Prop where
  size : after.memory.size = before.memory.size
  byteAt : ∀ place < before.memory.size, after.memory.byteAt place =
    turns.foldl (fun byte turn => byte &&& Bytes.maskAt turn.piece.address turn.piece.bytes place)
      (before.memory.byteAt place)
  logged : ∃ gained, after.events.toList = before.events.toList ++ gained ∧
    gained.map MemoryEvent.span? = turns.map fun turn =>
      some (UInt32.ofNat turn.piece.address, turn.piece.bytes.length)

/-- A chip that carries out the calls of turns programs the page of each. -/
theorem turnsTaken_of_carry {width : BusWidth} {turns : List (Turn count)} {before after : Chip}
    (hhears : before.Hears width) (hwidth : ∀ turn ∈ turns, turn.bus.width = width)
    (hfits : ∀ turn ∈ turns, turn.piece.Fits before.memory.size)
    (h : ((turns.flatMap Turn.calls).map Prod.snd).foldlM Chip.carry? before = some after) :
    TurnsTaken turns before after := by
  induction turns generalizing before with
  | nil =>
      obtain rfl := Option.some.inj h
      exact ⟨rfl, fun _ _ => rfl, [], by simp, rfl⟩
  | cons turn rest ih =>
      -- The rest start from the chip that the first turn leaves, which still hears them.
      have hcalls : turn.calls.map Prod.snd =
          (Line.turn turn.bus turn.piece).filterMap Line.call? := by
        simp [Turn.calls]
      rw [List.flatMap_cons, List.map_append, List.foldlM_append, hcalls] at h
      obtain ⟨middle, hturn, hrest⟩ := Option.bind_eq_some_iff.mp h
      have hfirst : turn.bus.width = width := hwidth turn List.mem_cons_self
      have hprogrammed := Chip.programmed_of_turn (hfirst ▸ hhears) hturn
      obtain ⟨hsize, hbyte⟩ := hprogrammed.byteAt (hfits turn List.mem_cons_self)
      obtain ⟨hlast, hbytes, gained, hgained, hspans⟩ := ih (hhears.of_mode hprogrammed.mode)
        (fun other hother => hwidth other (List.mem_cons_of_mem turn hother))
        (fun other hother => hsize ▸ hfits other (List.mem_cons_of_mem turn hother)) hrest
      obtain ⟨event, hevent, hspan⟩ := hprogrammed.logged
      refine ⟨hlast.trans hsize, fun place hplace => ?_, event :: gained, ?_, ?_⟩
      · rw [hbytes place (hsize ▸ hplace), hbyte place hplace]
        rfl
      · rw [hgained, hevent, Array.toList_push, List.append_assoc]
        rfl
      · rw [List.map_cons, List.map_cons, hspan, hspans]

/-! ## What comes of it -/

section Writers

variable {id : JedecId} {engine : Engine} {identity : Identity} {width : BusWidth} {bench : Bench}
  {operations : Fin count → Operation} {writes : Fin count → UInt32 × Bytes}

/-- Every caller is done, and has succeeded. -/
def Crew.Succeeded (crew : Crew Bench Outcome count) : Prop :=
  ∀ who, ∃ outcome ∈ (crew.left who).value?, outcome.result.isOk = true

instance (crew : Crew Bench Outcome count) : Decidable crew.Succeeded :=
  inferInstanceAs
    (Decidable (∀ who, ∃ outcome ∈ (crew.left who).value?, outcome.result.isOk = true))

/-- The pages of each writer. -/
def pagesOf (writes : Fin count → UInt32 × Bytes) (who : Fin count) : List PagePiece :=
  Page.cut (writes who).1.toNat (writes who).2

/-- What is left of a byte by all that is written over it. -/
def overlaid (writes : Fin count → UInt32 × Bytes) (place : Nat) (byte : UInt8) : UInt8 :=
  (List.finRange count).foldl
    (fun byte who => byte &&& Bytes.maskAt (writes who).1.toNat (writes who).2 place) byte

/-- Callers that share an engine, each with one operation, and get on in the order of a schedule. -/
def Engine.performTogether (engine : Engine) (operations : Fin count → Operation)
    (schedule : List (Fin count)) (bench : Bench) : Crew Bench Outcome count :=
  (Crew.assemble bench fun who => engine.perform (operations who)).interleave Bench.environment
    schedule

/-- The stage of a writer that has succeeded, and what was checked of its range. -/
def Finished (engine : Engine) (write : UInt32 × Bytes) (outcome : Outcome) (stage : Stage) :
    Prop :=
  outcome.result.isOk = true → stage = .working [] [] ∧
    (write.2 ≠ [] → engine.checkRange write.1 write.2.length = .ok ())

/-- Every schedule leaves things standing, with each writer in some stage. -/
theorem keeps_performTogether (h : engine.Serving id identity width bench)
    (hwrites : ∀ who, (operations who).written? = some (writes who)) (schedule : List (Fin count)) :
    ∃ phases, (engine.performTogether operations schedule bench).Keeps Stage.next
      (fun who => Finished engine (writes who)) (Standing width bench.chip (pagesOf writes))
      phases := by
  obtain ⟨bus, hbus, hwidth⟩ := h.attuned.bus
  have hdevice := Engine.requireDevice_of_identity h.attuned.identity
  have hstart : (Crew.assemble bench fun who => engine.perform (operations who)).Keeps Stage.next
      (fun who => Finished engine (writes who)) (Standing width bench.chip (pagesOf writes))
      fun who => .working [] (pagesOf writes who) := by
    refine ⟨fun who => Engine.follows_perform hdevice (hwrites who), ?_⟩
    exact .free [] (pagesOf writes) bus (fun _ => rfl) hbus hwidth ⟨fun _ => rfl, by simp, rfl, rfl⟩
  exact Crew.interleave_keeps hstart
    (fun _ _ _ _ _ _ _ hstanding hnext hmove => hstanding.step hnext hmove) schedule

/-- Once every caller has succeeded the turns are over, and they were for the pages of each, which
lie within the chip. -/
theorem recorded_of_succeeded (h : engine.Serving id identity width bench)
    (hwrites : ∀ who, (operations who).written? = some (writes who)) {schedule : List (Fin count)}
    (hdone : (engine.performTogether operations schedule bench).Succeeded) :
    let crew := engine.performTogether operations schedule bench
    (∃ turns, Recorded width bench.chip (pagesOf writes) turns (fun _ => []) [] crew.state.chip
      (Crew.calls crew.said)) ∧
    ∀ who, (writes who).2 ≠ [] →
      (writes who).1.toNat + (writes who).2.length ≤ bench.chip.memory.size := by
  intro crew
  obtain ⟨phases, hfollows, hstanding⟩ := keeps_performTogether h hwrites schedule
  have hended : ∀ who, phases who = .working [] [] ∧ ((writes who).2 ≠ [] →
      engine.checkRange (writes who).1 (writes who).2.length = .ok ()) := by
    intro who
    obtain ⟨outcome, hleft, hok⟩ := hdone who
    exact (hfollows who).of_value? hleft hok
  refine ⟨hstanding.recorded fun who => (hended who).1, fun who hsome => ?_⟩
  have hok := (hended who).2 hsome
  obtain ⟨hrange, -⟩ | ⟨-, fault, hcheck⟩ :=
    Engine.checkRange_of_identity h.attuned.identity (writes who).1 (writes who).2.length
  · exact h.size_eq ▸ hrange
  · cases hcheck.symm.trans hok

/-- The page of a turn fits the chip, since the write it belongs to does. -/
theorem fits_of_recorded {turns : List (Turn count)} {now : Chip}
    {calls : List (Fin count × BusCall)} {chip : Chip}
    (h : Recorded width chip (pagesOf writes) turns (fun _ => []) [] now calls)
    (hsize : chip.memory.size ≤ addressable 24)
    (hranges : ∀ who, (writes who).2 ≠ [] →
      (writes who).1.toNat + (writes who).2.length ≤ chip.memory.size) :
    ∀ turn ∈ turns, turn.piece.Fits chip.memory.size := by
  intro turn hturn
  have hmem : turn.piece ∈ pagesOf writes turn.who := by
    rw [← h.pages_eq, List.append_nil]
    exact List.mem_map_of_mem (List.mem_filter.mpr ⟨hturn, by simp⟩)
  have hsome : (writes turn.who).2 ≠ [] := by
    intro hnone
    rw [pagesOf, hnone, Page.cut_nil] at hmem
    cases hmem
  have hwithin := Page.within_of_mem_cut _ hmem
  have hrange := hranges turn.who hsome
  have hlast := hwithin.last
  exact ⟨⟨Nat.zero_le _, Nat.le_trans hlast hrange, hwithin.page⟩,
    Catalog.toNat_ofNat_of_le (by omega)⟩

/-- But for an abort, the calls of a turn are those that program its page. -/
theorem Turn.filter_calls (turn : Turn count) :
    turn.calls.filter (·.2 ≠ .abort) =
      (turn.piece.calls turn.bus.width).map (turn.who, ·) := by
  cases hmapped : turn.bus.mapped <;>
    simp [calls, Line.calls_turn, Line.calls_body, PagePiece.calls, hmapped]

/-- Several callers write through one engine, in any order that they take the bus in. Once all have
succeeded, of every byte is left what all the data over it leaves. The chip was sent the pages of
each writer in its order, each page with a write enable of its own right before it, and programmed
exactly those. -/
theorem Engine.writes_together (h : engine.Serving id identity width bench)
    (hwrites : ∀ who, (operations who).written? = some (writes who)) (schedule : List (Fin count))
    (hdone : (engine.performTogether operations schedule bench).Succeeded) :
    let crew := engine.performTogether operations schedule bench
    crew.state.chip.memory.size = bench.chip.memory.size ∧
    (∀ place < bench.chip.memory.size, crew.state.chip.memory.byteAt place =
      overlaid writes place (bench.chip.memory.byteAt place)) ∧
    ∃ (pages : List (Fin count × PagePiece)) (gained : List MemoryEvent),
      (∀ who, (pages.filter (·.1 = who)).map Prod.snd = pagesOf writes who) ∧
      (Crew.calls crew.said).filter (·.2 ≠ .abort) =
        pages.flatMap (fun page => (page.2.calls width).map (page.1, ·)) ∧
      crew.state.chip.events.toList = bench.chip.events.toList ++ gained ∧
      gained.map MemoryEvent.span? =
        pages.map fun page => some (UInt32.ofNat page.2.address, page.2.bytes.length) := by
  intro crew
  obtain ⟨⟨turns, hrecorded⟩, hranges⟩ := recorded_of_succeeded h hwrites hdone
  have hcalls : Crew.calls crew.said = turns.flatMap Turn.calls :=
    (List.append_nil _).symm.trans hrecorded.calls_eq
  have hcarried := hrecorded.carried
  rw [show Crew.calls (engine.performTogether operations schedule bench).said = _ from hcalls]
    at hcarried
  obtain ⟨hsize, hbytes, gained, hgained, hspans⟩ := turnsTaken_of_carry h.attuned.hears
    hrecorded.width_eq (fits_of_recorded hrecorded h.size_le hranges) hcarried
  let pages := turns.map fun turn => (turn.who, turn.piece)
  have hpages : ∀ who, (pages.filter (·.1 = who)).map Prod.snd = pagesOf writes who := by
    intro who
    rw [← hrecorded.pages_eq who, List.append_nil, List.filter_map, List.map_map]
    rfl
  refine ⟨hsize, fun place hplace => ?_, pages, gained, hpages, ?_, hgained, ?_⟩
  · -- The turns are in the order of the schedule, and the statement goes writer by writer.
    have hsorted := foldl_and_byCaller
      (fun piece : PagePiece => Bytes.maskAt piece.address piece.bytes place) pages
      (bench.chip.memory.byteAt place)
      (fun who => Bytes.maskAt (writes who).1.toNat (writes who).2 place) (fun who byte => by
        rw [hpages]
        exact Page.foldl_maskAt_cut ..)
    rw [hbytes place hplace, overlaid, ← hsorted, List.foldl_map]
  · rw [hcalls, List.filter_flatMap, List.flatMap_map]
    refine List.flatMap_congr fun turn hturn => ?_
    rw [Turn.filter_calls, hrecorded.width_eq turn hturn]
  · rw [hspans, List.map_map]
    rfl

/-- Two writers that overlap on both sides of a page boundary, and take turns for their pages. The
second one reports its progress, which it also does while the first one holds the bus. The chip is
mapped when they begin. -/
theorem Engine.writes_together_of_overlapping :
    let identity : Identity :=
      ⟨Catalog.winbond, ⟨0x4015, "W25Q16DV", 4096, false, 8, some .quad⟩⟩
    let chip := { (Chip.fresh ⟨0xEF, 0x4015⟩).overwrite 0x1FE [0xF0, 0x0F, 0x33] with quad := true }
    let bench := { Bench.ofChip chip with bus := some ⟨.quad, true⟩ }
    let writes : Fin 2 → UInt32 × Bytes := ![(0x1FF, [0x3C, 0x3C]), (0x1FE, [0xFC, 0x0C, 0xF3])]
    let operations : Fin 2 → Operation :=
      ![.write 0x1FF [0x3C, 0x3C], .writeReporting 0x1FE [0xFC, 0x0C, 0xF3]]
    let schedule := .replicate 5 0 ++ [1] ++ .replicate 5 0 ++ .replicate 10 1 ++ .replicate 9 0 ++
      .replicate 10 1
    let crew := (Engine.mk .standard (some identity)).performTogether operations schedule bench
    (∀ who, (operations who).written? = some (writes who)) ∧ crew.Succeeded ∧
      crew.state.chip.memory.byteAt 0x1FE = 0xF0 ∧
      crew.state.chip.memory.byteAt 0x1FF = 0x0C ∧ crew.state.chip.memory.byteAt 0x200 = 0x30 := by
  intro identity chip bench writes operations schedule crew
  have hserving : (Engine.mk .standard (some identity)).Serving ⟨0xEF, 0x4015⟩ identity .quad
      bench :=
    ⟨⟨rfl, ⟨_, rfl, rfl⟩, rfl, rfl⟩, rfl, rfl⟩
  have hwrites : ∀ who, (operations who).written? = some (writes who) := by
    decide
  have hdone : crew.Succeeded := by decide +kernel
  obtain ⟨-, hbytes, -⟩ := writes_together hserving hwrites schedule hdone
  exact ⟨hwrites, hdone, (hbytes 0x1FE (by decide)).trans (by decide),
    (hbytes 0x1FF (by decide)).trans (by decide), (hbytes 0x200 (by decide)).trans (by decide)⟩

end Writers

end NorFlash
