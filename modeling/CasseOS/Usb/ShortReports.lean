import CasseOS.Lib.Run
import CasseOS.Usb.Handler
import Mathlib.Data.List.GetD

/-! # Short reports

A device may answer the 8-byte request of a pipe with fewer bytes. The controller
writes those to the start of the buffer and puts their number into the ACTLEN
field of the TD, which `uhci_kbd_service` does not look at: it hands over the
whole buffer, the end of an earlier report included. -/

namespace CasseOS.Usb
open Keyboard Screen

def tdActlenMask : UInt32 := 0x7FF

/- The data of one transaction. -/
structure Packet where
  bytes : List UInt8
  fits : bytes.length ≤ 8

/- The ACTLEN field holds the number of bytes less one. -/
def Packet.actlen (p : Packet) : UInt32 := (UInt32.ofNat p.bytes.length - 1) &&& tdActlenMask

/- The buffer after the transaction. -/
def Packet.over (p : Packet) (old : Report) : Report := fun j => p.bytes.getD j.val (old j)

/- The bus, and the packet of each completion since the pipe was opened. -/
structure PacketBus where
  bus : KbdBus
  packets : Fin uhciMaxKbdPipes → List Packet

/- The condition for `dataCompletion` to happen. -/
def accepts (i : Fin uhciMaxKbdPipes) (status : UInt32) (bus : KbdBus) : Bool :=
  match tdOf bus i with
  | some td =>
    td.controlStatus &&& tdActive ≠ 0 ∧ tokenToggle td.token = bus.devToggle i ∧ dataStatus status
  | none => false

/- What the controller finds in the buffer of the TD. -/
def bufferOf (i : Fin uhciMaxKbdPipes) (bus : KbdBus) : Report :=
  match tdOf bus i with
  | some td => reportAt bus.uhci td.bufferPointer
  | none => fun _ => 0

def packetCompletion (i : Fin uhciMaxKbdPipes) (p : Packet) (status : UInt32) (s : PacketBus) :
    PacketBus :=
  if accepts i status s.bus ∧ status &&& tdActlenMask = p.actlen then
    ⟨dataCompletion i (p.over (bufferOf i s.bus)) status s.bus,
      Function.update s.packets i (s.packets i ++ [p])⟩
  else s

/- The pipe that `openOn` opens, if any. -/
def openedBy (r : OpenRequest) (bus : KbdBus) : Option (Fin uhciMaxKbdPipes) :=
  match uhciKbdOpenInterruptIn r.world r.ioBase r.devAddr r.endpointAddress r.intervalFrames
    r.wMaxPacket r.keyboardDevIndex bus.uhci, freePipe bus.uhci with
  | some (_, result), some i => if result < 0 then none else some i
  | _, _ => none

def openPackets (r : OpenRequest) (s : PacketBus) : PacketBus :=
  ⟨openOn r s.bus,
    match openedBy r s.bus with
    | some i => Function.update s.packets i []
    | none => s.packets⟩

inductive PacketAction where
  | openPipe (r : OpenRequest)
  | packet (i : Fin uhciMaxKbdPipes) (p : Packet) (status : UInt32)
  | fail (i : Fin uhciMaxKbdPipes) (status : UInt32)
  | service
  | interrupt (io status : UInt16)

def packetStep (t : TextMode) (s : PacketBus) : PacketAction → PacketBus
  | .openPipe r => openPackets r s
  | .packet i p status => packetCompletion i p status s
  | .fail i status => {s with bus := failedCompletion i status s.bus}
  | .service => {s with bus := uhciKbdService t s.bus}
  | .interrupt io status => {s with bus := uhciIrqTop t io status s.bus}

def packetStart (heap : Addr → Option Object) (keyboards : KeyboardSystem) : PacketBus :=
  ⟨idleBus heap keyboards, fun _ => []⟩

/- Each byte of a report was sent in its own completion, or is 0. -/
def Fresh (report : Report) (p : Packet) : Prop :=
  ∀ j : Fin 8, p.bytes[j.val]? = some (report j) ∨ report j = 0

/- Of each pipe: every report handed over is fresh, and they depend on the
packets only. -/
structure FreshReports (s : PacketBus) : Prop where
  fresh : ∀ (i : Fin uhciMaxKbdPipes) (k : ℕ) (report : Report),
    (s.bus.delivered i)[k]? = some report →
      ∃ p, (s.packets i)[k]? = some p ∧ Fresh report p
  own : ∀ i, s.bus.delivered i <+: (s.packets i).map fun p => reportOf p.bytes

/- What a packet does not overwrite is 0. -/
def LeavesZeros (s : PacketBus) : PacketAction → Prop
  | .packet i p status => accepts i status s.bus = true → status &&& tdActlenMask = p.actlen →
    ∀ j : Fin 8, p.bytes.length ≤ j.val → bufferOf i s.bus j = 0
  | _ => True

/-! ### What has been sent -/

theorem over_zeros {p : Packet} {old : Report} (h : ∀ j : Fin 8, p.bytes.length ≤ j.val → old j = 0) :
    p.over old = reportOf p.bytes := by
  funext j
  unfold Packet.over reportOf
  by_cases hj : j.val < p.bytes.length
  · rw [List.getD_eq_getElem _ _ hj, List.getD_eq_getElem _ _ hj]
  · rw [not_lt] at hj
    rw [List.getD_eq_default _ _ hj, List.getD_eq_default _ _ hj]
    exact h j hj

theorem fresh_reportOf (p : Packet) : Fresh (reportOf p.bytes) p := by
  intro j
  unfold reportOf
  by_cases hj : j.val < p.bytes.length
  · rw [List.getD_eq_getElem _ _ hj, List.getElem?_eq_getElem hj]
    exact Or.inl rfl
  · rw [List.getD_eq_default _ _ (not_lt.mp hj)]
    exact Or.inr rfl

section Completed
variable {bus : KbdBus} {i : Fin uhciMaxKbdPipes} {status : UInt32}

theorem dataCompletion_completed (report : Report) (h : accepts i status bus = true) :
    (dataCompletion i report status bus).completed =
      Function.update bus.completed i (bus.completed i ++ [report]) := by
  unfold accepts at h
  unfold dataCompletion
  cases htd : tdOf bus i with
  | none => simp [htd] at h
  | some td =>
    simp only [htd, decide_eq_true_eq] at h
    exact congrArg KbdBus.completed (if_pos h)

theorem failedCompletion_completed : (failedCompletion i status bus).completed = bus.completed := by
  unfold failedCompletion
  split
  · split <;> rfl
  · rfl

theorem uhciIrqTop_completed {t : TextMode} {io : UInt16} {sts : UInt16} (h : BusInv bus) :
    (uhciIrqTop t io sts bus).completed = bus.completed := by
  have hack := acknowledge_ok h io sts
  obtain ⟨hinv, -, hone⟩ := service_ok t hack
  have htwo := (service_ok t hinv).2.2
  unfold uhciIrqTop
  dsimp only
  split
  · rfl
  · split <;> split
    · exact htwo.trans hone
    · exact hone
    · exact hone
    · rfl

theorem openOn_completed (r : OpenRequest) : (openOn r bus).completed =
    match openedBy r bus with
    | some i => Function.update bus.completed i []
    | none => bus.completed := by
  unfold openOn openedBy
  generalize uhciKbdOpenInterruptIn _ _ _ _ _ _ _ _ = opened, freePipe bus.uhci = free
  cases opened with
  | none => rfl
  | some o =>
    cases free with
    | none => rfl
    | some i =>
      dsimp only
      split <;> rfl

end Completed

/-! ### Runs -/

/- What the devices have sent is their packets, with zeros after them. -/
structure PacketInv (s : PacketBus) : Prop where
  bus : BusInv s.bus
  sent : ∀ i, s.bus.completed i = (s.packets i).map fun p => reportOf p.bytes

section Step
variable {s : PacketBus} (h : PacketInv s)
include h

/- A completion adds to both records, of one pipe. -/
theorem packetCompletion_inv {i : Fin uhciMaxKbdPipes} {p : Packet} {status : UInt32}
    (hok : LeavesZeros s (.packet i p status)) : PacketInv (packetCompletion i p status s) := by
  unfold packetCompletion
  split
  next hc =>
    refine ⟨dataCompletion_ok h.bus i _ status, ?_⟩
    intro j
    rw [over_zeros (hok hc.1 hc.2)]
    show (dataCompletion i (reportOf p.bytes) status s.bus).completed j =
      (Function.update s.packets i (s.packets i ++ [p]) j).map fun p => reportOf p.bytes
    rw [dataCompletion_completed _ hc.1]
    by_cases hj : j = i
    · rw [hj, Function.update_self, Function.update_self, List.map_append, h.sent i]
      rfl
    · rw [Function.update_of_ne hj, Function.update_of_ne hj, h.sent j]
  next => exact h

/- A step that completes nothing. -/
theorem PacketInv.of_completed {bus : KbdBus} (hbus : BusInv bus)
    (hsame : bus.completed = s.bus.completed) : PacketInv ⟨bus, s.packets⟩ := by
  refine ⟨hbus, fun j => ?_⟩
  rw [← h.sent j]
  exact congrFun hsame j

theorem openPackets_inv (r : OpenRequest) : PacketInv (openPackets r s) := by
  refine ⟨openOn_ok h.bus r, ?_⟩
  intro j
  unfold openPackets
  rw [openOn_completed]
  cases openedBy r s.bus with
  | none => exact h.sent j
  | some i =>
    by_cases hj : j = i
    · simp only [hj, Function.update_self, List.map_nil]
    · simp only [Function.update_of_ne hj, h.sent j]

theorem packetStep_inv (t : TextMode) {a : PacketAction} (hok : LeavesZeros s a) :
    PacketInv (packetStep t s a) := by
  cases a with
  | openPipe r => exact openPackets_inv h r
  | packet i p status => exact packetCompletion_inv h hok
  | fail i status =>
    exact h.of_completed (failedCompletion_ok h.bus i status) failedCompletion_completed
  | service =>
    obtain ⟨hinv, -, hcompleted⟩ := service_ok t h.bus
    exact h.of_completed hinv hcompleted
  | interrupt io status =>
    exact h.of_completed (uhciIrqTop_ok t h.bus io status) (uhciIrqTop_completed h.bus)

/- What is handed over is the beginning of what has been sent. -/
theorem PacketInv.freshReports : FreshReports s := by
  have hprefix : ∀ i, s.bus.delivered i <+: (s.packets i).map fun p => reportOf p.bytes := by
    intro i
    rw [← h.sent i, h.bus.exactly_once i]
    exact List.prefix_append _ _
  refine ⟨?_, hprefix⟩
  intro i k report hk
  have hsent : ((s.packets i).map fun p => reportOf p.bytes)[k]? = some report := by
    obtain ⟨hlt, -⟩ := List.getElem?_eq_some_iff.mp hk
    obtain ⟨rest, hrest⟩ := hprefix i
    rw [← hrest, List.getElem?_append_left hlt, hk]
  rw [List.getElem?_map, Option.map_eq_some_iff] at hsent
  obtain ⟨p, hp, rfl⟩ := hsent
  exact ⟨p, hp, fresh_reportOf p⟩

end Step

/-- In every order of opens, completions of any length, failures, service calls
and interrupts: if the bytes that a completion leaves out are 0 in the buffer
before, all along, then every byte that reaches the keyboard layer was sent in
the completion of its report, or is 0. -/
theorem short_reports_fresh (t : TextMode) (heap : Addr → Option Object)
    (keyboards : KeyboardSystem) (actions : List PacketAction)
    (hok : Run.Guarded (fun s a => some (packetStep t s a)) LeavesZeros
      (packetStart heap keyboards) actions) :
    Run.Throughout (fun s a => some (packetStep t s a)) FreshReports
      (packetStart heap keyboards) actions := by
  have hstart : PacketInv (packetStart heap keyboards) :=
    ⟨busRun_ok t heap keyboards [], fun _ => rfl⟩
  have hstep : ∀ s a, PacketInv s → LeavesZeros s a →
      ∃ s', some (packetStep t s a) = some s' ∧ PacketInv s' :=
    fun s a h hok => ⟨_, rfl, packetStep_inv h t hok⟩
  exact (Run.throughout_of_invariant hstep hstart hok).mono fun s h => h.freshReports

def shiftPacket : Packet where
  bytes := [2, 0]
  fits := Nat.le_of_ble_eq_true rfl

def keyPacket : Packet where
  bytes := [0, 0, 4, 0, 0, 0, 0, 0]
  fits := Nat.le_of_ble_eq_true rfl

/- A keyboard that sends two bytes onto the cleared buffer, and then a whole report;
both are served. -/
def shortThenFull (i : Fin uhciMaxKbdPipes) : List PacketAction :=
  [.openPipe ⟨⟨0x2010, 0x2020, 0x2030, 0⟩, 0xC000, 1, 0x81, 128, 8, 0⟩,
    .packet i shiftPacket 1, .service, .packet i keyPacket 7, .service]

theorem short_reports_fresh_served :
    Run.Throughout (fun s a => some (packetStep vgaText s a)) FreshReports
      (packetStart (fun _ => none) (noKeyboards biosConsole)) (shortThenFull 0) ∧
    ((((shortThenFull 0).foldl (packetStep vgaText)
      (packetStart (fun _ => none) (noKeyboards biosConsole))).bus.delivered 0).map
        fun r => (r 0, r 2)) = [(2, 0), (0, 4)] := by
  refine ⟨short_reports_fresh vgaText (fun _ => none) (noKeyboards biosConsole) _ ⟨trivial, ?_⟩,
    by decide +kernel⟩
  rintro _ ⟨⟩
  refine ⟨fun _ _ => by decide +kernel, ?_⟩
  rintro _ ⟨⟩
  refine ⟨trivial, fun s _ => ⟨?_, fun _ _ => ⟨trivial, fun _ _ => trivial⟩⟩⟩
  intro _ _ j hj
  exact absurd j.isLt (not_lt.mpr hj)

/- A whole report is served, and two bytes come in: the usage of the key is handed over
again. -/
theorem short_report_repeats_key :
    ¬ ∀ (heap : Addr → Option Object) (keyboards : KeyboardSystem) (actions : List PacketAction),
      Run.Throughout (fun s a => some (packetStep vgaText s a)) FreshReports
        (packetStart heap keyboards) actions := by
  intro h
  obtain ⟨actions, hactions⟩ : ∃ actions : List PacketAction, actions =
      [.openPipe ⟨⟨0x2010, 0x2020, 0x2030, 0⟩, 0xC000, 1, 0x81, 128, 8, 0⟩,
        .packet 0 ⟨[0, 0, 4, 0, 0, 0, 0, 0], by decide⟩ 7, .service,
        .packet 0 ⟨[0, 0], by decide⟩ 1, .service] := ⟨_, rfl⟩
  generalize hs : actions.foldl (packetStep vgaText)
    (packetStart (fun _ => none) (noKeyboards biosConsole)) = s
  have hfresh : FreshReports s :=
    (h (fun _ => none) (noKeyboards biosConsole) actions).last
      ((Run.exec_some _ _ _).trans (congrArg some hs))
  have hreport : (s.bus.delivered 0)[1]?.map (fun r => r 2) = some 4 := by
    rw [← hs, hactions]
    decide +kernel
  have hpacket : (s.packets 0)[1]?.map (fun p => p.bytes[2]?) = some none := by
    rw [← hs, hactions]
    decide +kernel
  obtain ⟨report, hk, husage⟩ := Option.map_eq_some_iff.mp hreport
  obtain ⟨p, hp, hbytes⟩ := hfresh.fresh 0 1 report hk
  rw [hp, Option.map_some, Option.some.injEq] at hpacket
  obtain hsent | hzero := hbytes 2
  · exact absurd (hpacket.symm.trans hsent) nofun
  · rw [husage] at hzero
    exact absurd hzero (by decide)

end CasseOS.Usb
