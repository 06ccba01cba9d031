import NorFlash.Proofs.Engine.Checks

/-!
# How a read is divided into transfers

A divided read leaves marks: the transfers it asks for, and between them the progress it reports.
`Program.Makes` says which marks a program leaves if it succeeds, and that one that fails leaves the
first of them. `makes_readReporting` puts the marks of a divided read together, and `read_divides`
says what they come to: the transfers are the parts of the range, in order. There are at most as
many as wanted if the range is small or can be divided evenly; otherwise the size of a part is
rounded down, and it takes one more.
-/

namespace NorFlash

variable {σ α β : Type}

/-! ## Marks -/

/-- What a call reads, if it is for a quad read: the address and the length as a chip takes them. -/
def BusCall.fetched? (request : BusCall) : Option (Nat × Nat) :=
  match request.command? with
  | some sent =>
      if sent.instruction = Opcode.fastReadQuad.code then
        some (sent.address.elim 0 fun (address, _) => address.toNat, sent.data.length)
      else
        none
  | none => none

/-- What an interaction reads. -/
def Interaction.fetched? : Interaction → Option (Nat × Nat)
  | call request _ => request.fetched?
  | _ => none

/-- What is to be seen of a divided read. -/
inductive Mark where
  /-- A transfer, with its address and its length. -/
  | fetched (part : Nat × Nat)
  | reported (count : Nat)
  deriving DecidableEq

namespace Mark

/-- The mark that an interaction leaves. -/
def of? : Interaction → Option Mark
  | .call request _ => request.fetched?.map fetched
  | .report count => some (reported count)
  | _ => none

/-- The transfer of a mark. -/
def fetched? : Mark → Option (Nat × Nat)
  | fetched part => some part
  | reported _ => none

/-- What is fetched can be told from the mark that an interaction leaves. -/
theorem fetched?_of (interaction : Interaction) :
    interaction.fetched? = (of? interaction).bind fetched? := by
  cases interaction with
  | call request reply =>
      show request.fetched? = (request.fetched?.map fetched).bind fetched?
      cases request.fetched? <;> rfl
  | _ => rfl

/-- The report of a mark. -/
def reported? : Mark → Option Nat
  | fetched _ => none
  | reported count => some count

/-- The marks still to be left, after an interaction that leaves the first of them or none. -/
def next : Rule (List Mark)
  | todo, interaction =>
      match of? interaction, todo with
      | none, todo => some todo
      | some mark, first :: rest => if mark = first then some rest else none
      | some _, [] => none

/-- What the rule accepts has left the first of the marks. -/
theorem eq_of_foldlM {said : Dialogue} {todo left : List Mark}
    (h : said.foldlM next todo = some left) : todo = said.filterMap of? ++ left := by
  induction said generalizing todo with
  | nil => exact Option.some.inj h
  | cons interaction rest ih =>
      rw [List.foldlM_cons] at h
      obtain ⟨after, hafter, hrest⟩ := Option.bind_eq_some_iff.mp h
      have hleft := ih hrest
      cases hmark : of? interaction with
      | none =>
          simp only [next, hmark, Option.some.injEq] at hafter
          rw [hafter, hleft, List.filterMap_cons_none hmark]
      | some mark =>
          rw [List.filterMap_cons_some hmark]
          cases todo with
          | nil => simp [next, hmark] at hafter
          | cons first others =>
              simp only [next, hmark, Option.ite_none_right_eq_some, Option.some.injEq] at hafter
              rw [hafter.1, hafter.2, hleft, List.cons_append]

end Mark

/-- Whatever the program is answered, it leaves the marks, in order, if its value is a success, and
the first of them otherwise. -/
def Program.Makes (marks : List Mark) (success : α → Bool) (program : Program α) : Prop :=
  ∀ todo, program.Follows Mark.next (fun value left => success value = true → left = todo)
    (marks ++ todo)

/-- As `Program.Makes`, for an action, which succeeds if there is no fault. -/
abbrev Action.Makes (marks : List Mark) (action : Action α) : Prop :=
  Program.Makes marks Except.isOk action.run

/-- The marks that a run has left are the first of those that it is to leave, and all of them if it
succeeds. -/
theorem Program.Makes.run {program : Program α} {marks : List Mark} {success : α → Bool}
    (h : program.Makes marks success) (environment : Environment σ) (state : σ) :
    (program.dialogue environment state).filterMap Mark.of? <+: marks ∧
      (success (program.run environment state).1 = true →
        (program.dialogue environment state).filterMap Mark.of? = marks) := by
  obtain ⟨left, hleft, hsuccess⟩ := (h []).run environment state
  have hmarks := Mark.eq_of_foldlM hleft
  rw [List.append_nil] at hmarks
  refine ⟨⟨left, hmarks.symm⟩, fun hdone => ?_⟩
  rw [hsuccess hdone, List.append_nil] at hmarks
  exact hmarks.symm

namespace Program

variable {marks more : List Mark} {success : α → Bool} {finished : β → Bool}

/-- A program that does nothing makes no mark. -/
theorem makes_pure (value : α) : (pure value : Program α).Makes [] success :=
  fun _ _ => rfl

/-- A program that goes on only after a success leaves its marks one after the other. -/
theorem Makes.bind {program : Program α} {next : α → Program β} (h : program.Makes marks success)
    (hnext : ∀ value, success value = true → (next value).Makes more finished)
    (hstop : ∀ value, success value = false → ∃ result, next value = pure result ∧
      finished result = false) :
    (program >>= next).Makes (marks ++ more) finished := by
  intro todo
  rw [List.append_assoc]
  refine (h (more ++ todo)).bind fun value left hleft => ?_
  cases hvalue : success value with
  | true =>
      rw [hleft hvalue]
      exact hnext value hvalue todo
  | false =>
      obtain ⟨result, hresult, hfailed⟩ := hstop value hvalue
      rw [hresult]
      intro hfinished
      rw [hfailed] at hfinished
      cases hfinished

/-- A program that only settles what its value is leaves no more marks. -/
theorem Makes.settle {program : Program α} {next : α → Program β} (h : program.Makes marks success)
    (hnext : ∀ value, ∃ result, next value = pure result ∧
      (finished result = true → success value = true)) :
    (program >>= next).Makes marks finished := by
  intro todo
  refine (h todo).bind fun value left hleft => ?_
  obtain ⟨result, hresult, hdone⟩ := hnext value
  rw [hresult]
  exact fun hfinished => hleft (hdone hfinished)

end Program

namespace Action

variable {marks more : List Mark} {action : Action α}

/-- An action that does nothing makes no mark. -/
theorem makes_pure (value : α) : Action.Makes [] (pure value : Action α) :=
  Program.makes_pure _

/-- Going on makes the marks of both parts. -/
theorem Makes.bind {next : α → Action β} (h : action.Makes marks)
    (hnext : ∀ value, (next value).Makes more) :
    Action.Makes (marks ++ more) (action >>= next) := by
  refine Program.Makes.bind h (fun result hresult => ?_) fun result hresult => ?_
  · cases result with
    | ok value => exact hnext value
    | error fault => cases hresult
  · cases result with
    | ok value => cases hresult
    | error fault => exact ⟨.error fault, rfl, rfl⟩

/-- Changing the value makes no mark. -/
theorem Makes.map {change : α → β} (h : action.Makes marks) :
    Action.Makes marks (action >>= fun value => pure (change value)) := by
  refine Program.Makes.settle h fun result => ?_
  cases result with
  | ok value => exact ⟨.ok (change value), rfl, fun _ => rfl⟩
  | error fault => exact ⟨.error fault, rfl, fun hdone => by cases hdone⟩

/-- An action that fails a check leaves none of the marks, whichever they are. -/
theorem makes_ofExcept_bind {result : Except Fault α} {next : α → Action β}
    (h : ∀ value, result = .ok value → (next value).Makes marks) :
    Action.Makes marks (MonadExcept.ofExcept result >>= next) := by
  cases result with
  | ok value => exact h value rfl
  | error fault => exact fun _ hdone => by cases hdone

/-- A report marks its count. -/
theorem makes_report (count : Nat) : (Action.report count).Makes [.reported count] :=
  fun todo => ⟨todo, if_pos rfl, fun _ => rfl⟩

/-- Actions one after the other make the marks of each. -/
theorem makes_mapM {list : List α} {action : α → Action β} {marks : α → List Mark}
    (h : ∀ item ∈ list, (action item).Makes (marks item)) :
    (list.mapM action).Makes (list.flatMap marks) := by
  rw [← List.mapM'_eq_mapM]
  induction list with
  | nil => exact makes_pure []
  | cons first rest ih =>
      have hrest := ih fun item hitem => h item (List.mem_cons_of_mem first hitem)
      rw [List.mapM'_cons, List.flatMap_cons]
      exact (h first List.mem_cons_self).bind fun value => hrest.map

end Action

/-! ## Transfers -/

namespace Engine

variable {engine : Engine} {device : Descriptor} {address : UInt32} {length : Nat}

/-- A quad read fetches so many bytes from its address. -/
theorem fetched?_quadRead (device : Descriptor) (width : BusWidth) (address : UInt32)
    (length : Nat) :
    (BusCall.start (quadRead device width address length)).fetched? =
      some (address.toNat, length) := by
  unfold quadRead readCommand
  cases device.modeWidth <;> rfl

/-- A transfer leaves its mark when it is begun, however it ends. -/
theorem follows_exchange (device : Descriptor) (width : BusWidth) (address : UInt32)
    (length patience : Nat) (todo : List Mark) :
    (Program.exchange (.start (quadRead device width address length)) patience).Follows Mark.next
      (fun _ left => left = todo) (.fetched (address.toNat, length) :: todo) := by
  refine ⟨_, rfl, fun reply => ⟨todo, ?_, ?_⟩⟩
  · simp [Mark.next, Mark.of?, fetched?_quadRead]
  · cases reply with
    | error cause => exact fun _ => ⟨todo, rfl, rfl⟩
    | ok received =>
        intro arrived
        refine ⟨todo, rfl, ?_⟩
        cases arrived with
        | true => rfl
        | false => exact fun _ => ⟨todo, rfl, rfl⟩

/-- A read that gets the bus leaves the mark of its transfer. -/
theorem makes_fetch (engine : Engine) (device : Descriptor) (address : UInt32) (length : Nat) :
    Program.Makes [.fetched (address.toNat, length)]
      (fun result => (result.bind Prod.snd).isOk) (engine.fetch device address length).run := by
  intro todo bus
  refine ⟨_, rfl, ?_⟩
  cases bus with
  | none => exact fun hbusy => by cases hbusy
  | some bus =>
      obtain ⟨width, mapped⟩ := bus
      let exchange := Program.exchange (.start (quadRead device width address length))
        engine.timeouts.command
      have hlifted : (liftM exchange : Action _).run.Follows Mark.next (fun _ left => left = todo)
          (.fetched (address.toNat, length) :: todo) :=
        (follows_exchange device width address length _ todo).bind fun _ _ hleft => hleft
      have hheld : ((BusAction.lift (liftM exchange)).run.run ⟨width, false⟩).Follows Mark.next
          (fun _ left => left = todo) (.fetched (address.toNat, length) :: todo) :=
        hlifted.bind fun _ _ hleft => hleft
      have hgiven : ((BusAction.lift (liftM exchange)).run.run ⟨width, false⟩ >>= fun ended =>
          Program.release ended.2 (.done ended.1)).Follows Mark.next
          (fun result left => (result.bind Prod.snd).isOk = true → left = todo)
          (.fetched (address.toNat, length) :: todo) :=
        hheld.bind fun _ left hleft => ⟨left, rfl, fun _ => hleft⟩
      cases mapped with
      | false => exact hgiven
      | true => exact fun _ => ⟨_, rfl, hgiven⟩

/-- Bytes that are read into a zeroed buffer are read in one transfer. -/
theorem makes_readZeroed (hdevice : engine.requireDevice = .ok device) (hlength : length ≠ 0)
    (hrange : engine.checkRange address length = .ok ()) :
    (engine.readZeroed address length).Makes [.fetched (address.toNat, length)] := by
  have hinto : (engine.readInto address (List.replicate length 0)).Makes
      [.fetched (address.toNat, length)] fun ended => ended.1.isOk := by
    unfold readInto
    simp only [hdevice, List.replicate_eq_nil_iff, if_neg hlength, List.length_replicate, hrange]
    refine (makes_fetch engine device address length).settle fun result => ?_
    cases result with
    | error fault => exact ⟨_, rfl, id⟩
    | ok ended => exact ⟨_, rfl, id⟩
  have hlifted : (liftM (engine.readInto address (List.replicate length 0)) : Action _).run.Makes
      [.fetched (address.toNat, length)] fun result => (result.bind Prod.fst).isOk :=
    hinto.settle fun ended => ⟨.ok ended, rfl, id⟩
  refine hlifted.settle fun result => ?_
  obtain fault | ⟨fault | _, bytes⟩ := result
  · exact ⟨_, rfl, id⟩
  · exact ⟨_, rfl, id⟩
  · exact ⟨_, rfl, id⟩

/-- The marks of a divided read: each part is read and reported. -/
def readMarks (address : UInt32) (length : Nat) : List Mark :=
  .reported 0 :: ((spans length (transferSize length)).flatMap fun span =>
    [.fetched ((UInt32.ofNat (address.toNat + span.1)).toNat, span.2),
      .reported (span.1 + span.2)]) ++ [.reported length]

/-- A read in parts marks its reports and the fetch of each part. -/
theorem makes_readReporting (engine : Engine) (address : UInt32) (length : Nat) :
    (engine.readReporting address length).Makes (readMarks address length) := by
  unfold readReporting
  cases hdevice : engine.requireDevice with
  | error fault => exact fun _ hdone => by cases hdone
  | ok device =>
      refine Action.makes_ofExcept_bind fun _ hrange => (Action.makes_report 0).bind fun _ => ?_
      refine (Action.makes_mapM fun span hspan => ?_).bind fun parts => ?_
      · obtain ⟨hpart, hcheck⟩ := checkRange_span hrange hspan
        exact (makes_readZeroed hdevice hpart hcheck).bind fun bytes =>
          (Action.makes_report _).map
      · exact (Action.makes_report length).map

/-- A divided read leaves its marks if it succeeds, and the first of them if it fails. -/
theorem makes_perform (engine : Engine) (address : UInt32) (length : Nat) :
    (engine.perform (.readReporting address length)).Makes (readMarks address length)
      fun outcome => outcome.result.isOk := by
  show (Outcome.ofValue .bytes <$> (engine.readReporting address length).run).Makes _ _
  rw [map_eq_pure_bind]
  refine (makes_readReporting engine address length).settle fun result => ?_
  cases result with
  | ok bytes => exact ⟨_, rfl, id⟩
  | error fault => exact ⟨_, rfl, id⟩

/-- The transfers among the marks are the parts of the range, as long as no address wraps around. -/
theorem fetched_readMarks (h : address.toNat + length ≤ UInt32.size) :
    (readMarks address length).filterMap Mark.fetched? =
      (spans length (transferSize length)).map fun span => (address.toNat + span.1, span.2) := by
  simp only [readMarks, List.filterMap_cons, List.filterMap_append, List.filterMap_flatMap,
    Mark.fetched?, List.filterMap_nil, List.append_nil, ← List.map_eq_flatMap]
  refine List.map_congr_left fun span hspan => ?_
  obtain ⟨-, hpositive, hwithin⟩ := (adjoining_spans length (transferSize_pos length)).within hspan
  rw [UInt32.toNat_ofNat_of_lt' (by omega)]

/-- A read reports zero, where each part ends, and its length once more. -/
theorem reported_readMarks (address : UInt32) (length : Nat) :
    (readMarks address length).filterMap Mark.reported? =
      0 :: ((spans length (transferSize length)).map fun span => span.1 + span.2) ++ [length] := by
  simp only [readMarks, List.filterMap_cons, List.filterMap_append, List.filterMap_flatMap,
    Mark.reported?, List.filterMap_nil, List.map_eq_flatMap]

/-- Whatever the surroundings do, the transfers that a divided read asks for are the parts of its
range, in order, up to the first that fails. There are as few as wanted, or one more: it is one more
exactly if the range is large and the size of a part had to be rounded down. -/
theorem read_divides (hcatalogued : engine.Catalogued)
    (hrange : address.toNat + length ≤ engine.capacity) (environment : Environment σ) (state : σ) :
    let program := engine.perform (.readReporting address length)
    let parts := (spans length (transferSize length)).map fun span =>
      (address.toNat + span.1, span.2)
    let fetched := (program.dialogue environment state).filterMap Interaction.fetched?
    Divides address.toNat (address.toNat + length) parts ∧
      fetched <+: parts ∧
      ((program.run environment state).1.result.isOk = true → fetched = parts) ∧
      parts.length ≤ mostTransfers + 1 ∧
      (parts.length ≤ mostTransfers ↔
        length ≤ mostTransfers * leastTransfer ∨ mostTransfers ∣ length) := by
  intro program parts fetched
  have hadjoins := (adjoining_spans length (transferSize_pos length)).shift address.toNat
  obtain ⟨hfirst, hall⟩ := (makes_perform engine address length).run environment state
  have hmarks : fetched =
      ((program.dialogue environment state).filterMap Mark.of?).filterMap Mark.fetched? := by
    rw [List.filterMap_filterMap]
    exact congrArg (List.filterMap · _) (funext Mark.fetched?_of)
  have hparts : (readMarks address length).filterMap Mark.fetched? = parts := by
    have hcapacity := Nat.le_trans hrange hcatalogued.capacity_le
    exact fetched_readMarks (Nat.le_trans hcapacity (by decide))
  rw [hmarks]
  refine ⟨hadjoins.divides, hparts ▸ hfirst.filterMap _, fun hdone => ?_, ?_, ?_⟩
  · rw [hall hdone, hparts]
  · rw [List.length_map]
    exact length_spans_transferSize_le_succ length
  · rw [List.length_map]
    exact length_spans_transferSize_le_iff

/-- A read of one byte more than the wanted number of least transfers takes one transfer more. -/
theorem read_divides_beyond_least_transfers :
    let engine : Engine := ⟨.standard, some ⟨Catalog.winbond,
      ⟨0x4015, "W25Q16DV", 4096, false, 8, some .quad⟩⟩⟩
    let chip := { Chip.fresh ⟨0xEF, 0x4015⟩ with
      quad := true, registers := { Registers.afterReset ⟨0x02⟩ with readParameters := ⟨0x30⟩ } }
    let bench := { Bench.ofChip chip with bus := some ⟨.quad, false⟩ }
    let program := engine.perform (.readReporting 0 0x20001)
    let fetched := (program.dialogue Bench.environment bench).filterMap Interaction.fetched?
    (program.run Bench.environment bench).1.result.isOk = true ∧ Divides 0 0x20001 fetched ∧
      fetched.length = mostTransfers + 1 := by
  intro engine chip bench program fetched
  have hcatalogued : engine.Catalogued := by
    intro identity hidentity
    obtain rfl := Option.some.inj hidentity
    exact ⟨⟨0xEF, 0x4015⟩, rfl⟩
  have hrange : (0 : UInt32).toNat + 0x20001 ≤ engine.capacity := by decide
  have hattuned : engine.Attuned _ .quad bench := ⟨rfl, ⟨_, rfl, rfl⟩, ⟨rfl, rfl⟩⟩
  have hresponsive : bench.chip.Responsive := ⟨rfl, rfl⟩
  have haccepts : Accepts ⟨Catalog.winbond, ⟨0x4015, "W25Q16DV", 4096, false, 8, some .quad⟩⟩
      bench :=
    Chip.checkRead_of_expects ⟨fun _ => by decide, by decide⟩
  -- The run is not to be unfolded.
  clear_value bench engine
  have hok : (program.run Bench.environment bench).1.result.isOk = true := by
    obtain ⟨bytes, hbytes, -⟩ | ⟨-, hdenies⟩ := @ends_perform bench engine _ .quad 0 0x20001
      (.readReporting 0 0x20001) hattuned (by decide) rfl
    · cases hresult : (program.run Bench.environment bench).1.result with
      | ok payload => rfl
      | error fault => simp [Outcome.delivered?, program, hresult] at hbytes
    · exact absurd (by decide) (hdenies.outside hresponsive haccepts)
  obtain ⟨hdivides, -, hall, hmost, hleast⟩ :=
    read_divides hcatalogued hrange Bench.environment bench
  have hfetched : fetched = _ := hall hok
  rw [hfetched]
  refine ⟨hok, hdivides, Nat.le_antisymm hmost (Nat.lt_of_not_le ?_)⟩
  rw [hleast]
  decide

end Engine

end NorFlash
