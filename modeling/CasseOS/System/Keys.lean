import CasseOS.System.Kernel

/-! # No key is lost on the way

From the devices to the shell: what the handlers of the UHCI controller pass on is
what the keyboards have sent, and what the shell reads is what the handlers have
dispatched, in order, but for the events that found the queue full. -/

namespace CasseOS.System
open Keyboard Screen Shell Usb

/-! ### What the handlers pass on -/

section Devices
variable (t : TextMode) (io : UInt16) {s : IrqSystem}

theorem dataCompletion_frame (i : Fin uhciMaxKbdPipes) (report : Report) (status : UInt32)
    (bus : KbdBus) : (dataCompletion i report status bus).keyboards = bus.keyboards ∧
      (dataCompletion i report status bus).delivered = bus.delivered := by
  unfold dataCompletion
  split
  · split <;> exact ⟨rfl, rfl⟩
  · exact ⟨rfl, rfl⟩

theorem failedCompletion_frame (i : Fin uhciMaxKbdPipes) (status : UInt32) (bus : KbdBus) :
    (failedCompletion i status bus).keyboards = bus.keyboards ∧
      (failedCompletion i status bus).delivered = bus.delivered := by
  unfold failedCompletion
  split
  · split <;> exact ⟨rfl, rfl⟩
  · exact ⟨rfl, rfl⟩

theorem retire_frame {bus : KbdBus} (hk : bus.keyboards = s.bus.keyboards)
    (hd : bus.delivered = s.bus.delivered) (i : Fin uhciMaxKbdPipes) (cause : StatusCause) :
    (retire i cause bus s).bus.keyboards = s.bus.keyboards ∧
      (retire i cause bus s).bus.delivered = s.bus.delivered := by
  unfold retire
  split
  · exact ⟨hk, hd⟩
  · exact ⟨rfl, rfl⟩

/- What a step hands to the keyboard layer is what the pipes have delivered. -/
structure Serves (s s' : IrqSystem) (inputs : List Input) : Prop where
  keyboards : s'.bus.keyboards = inputs.foldl (receive t) s.bus.keyboards
  delivered : ∀ i, s'.bus.delivered i = s.bus.delivered i ++ reportsOf i inputs

theorem Serves.nothing {s' : IrqSystem} (hk : s'.bus.keyboards = s.bus.keyboards)
    (hd : s'.bus.delivered = s.bus.delivered) : Serves t s s' [] :=
  ⟨hk, fun i => by rw [hd]; exact (List.append_nil _).symm⟩

theorem handlerStep_serves : Serves t s (handlerStep t io s) (served s .handler) := by
  unfold handlerStep served
  cases s.phase with
  | idle => exact .nothing t rfl rfl
  | statusRead st =>
    dsimp only
    split <;> exact .nothing t rfl rfl
  | servicing pipes =>
    cases pipes with
    | nil => exact .nothing t rfl rfl
    | cons i pipes =>
      obtain ⟨hkeyboards, hdelivered⟩ := servicePipe_serves t s.bus i
      refine ⟨hkeyboards, fun j => ?_⟩
      dsimp only
      rw [hdelivered, reportsOf_map]
      by_cases hj : i = j
      · subst hj
        rw [Function.update_self, if_pos rfl]
      · rw [Function.update_of_ne (Ne.symm hj), if_neg hj, List.append_nil]

theorem irqStep_serves {a : IrqAction} (ha : opensPipe a = false) :
    Serves t s (irqStep t io s a) (served s a) := by
  cases a with
  | openPipe r => cases ha
  | data i report status cause =>
    obtain ⟨hk, hd⟩ := dataCompletion_frame i report status s.bus
    obtain ⟨hk, hd⟩ := retire_frame hk hd i cause
    exact .nothing t hk hd
  | fail i status cause =>
    obtain ⟨hk, hd⟩ := failedCompletion_frame i status s.bus
    obtain ⟨hk, hd⟩ := retire_frame hk hd i cause
    exact .nothing t hk hd
  | setStatus k =>
    show Serves t s (setStatusFor k s) []
    unfold setStatusFor
    split <;> exact .nothing t rfl rfl
  | raise bits => exact .nothing t rfl rfl
  | handler => exact handlerStep_serves t io

theorem receiveAll_spec (inputs : List Input) (sys : KeyboardSystem) :
    decoderOf (inputs.foldl (receive t) sys) = (decoderOf sys).after inputs ∧
      (inputs.foldl (receive t) sys).kbd.events =
        sys.kbd.events.pushAll ((decoderOf sys).decode inputs) := by
  induction inputs generalizing sys with
  | nil => exact ⟨rfl, rfl⟩
  | cons input inputs ih =>
    obtain ⟨hdecoder, hevents⟩ := receive_spec t sys input
    obtain ⟨hdecoders, hall⟩ := ih (receive t sys input)
    refine ⟨?_, ?_⟩
    · rw [List.foldl_cons, hdecoders, hdecoder]
      rfl
    · rw [List.foldl_cons, hall, hevents, hdecoder, Decoder.decode]
      exact (List.foldl_append ..).symm

end Devices

/-! ### What the loop reads -/

section Loop
variable {ω : Type} {t : TextMode} {start k k' : Kernel ω}

def LoopPhase.reader : LoopPhase → Reader KeyEvent
  | .reading reader => reader
  | _ => .idle

def Kernel.queue (k : Kernel ω) : Channel keybufCap KeyEvent :=
  ⟨k.keyboards.kbd.events, k.phase.reader, k.log.read⟩

/- The handlers have passed on the inputs. -/
structure Receives (t : TextMode) (inputs : List Input) (k k' : Kernel ω) : Prop where
  keyboards : k'.keyboards = inputs.foldl (receive t) k.keyboards
  delivered : ∀ i, k'.irq.bus.delivered i = k.irq.bus.delivered i ++ reportsOf i inputs
  cmd : k'.cmd = k.cmd
  endCommand : k'.endCommand = k.endCommand
  start : k'.start = k.start
  phase : k'.phase = k.phase
  log : k'.log = k.receives inputs

theorem usbStep_receives (t : TextMode) (io : UInt16) (k : Kernel ω) (a : DeviceAction) :
    Receives t (served k.irq a.val) k (usbStep t io k a) := by
  have hserves := irqStep_serves t io (s := k.irq) a.property
  exact ⟨hserves.keyboards, hserves.delivered, rfl, rfl, rfl, rfl, rfl⟩

theorem ps2Step_receives (t : TextMode) (k : Kernel ω) (sc : UInt8) :
    Receives t [.scan sc] k (ps2Step t k sc) :=
  ⟨rfl, fun _ => (List.append_nil _).symm, rfl, rfl, rfl, rfl, rfl⟩

/- The loop has taken a step: of the bus it changes the keyboard layer only, and of
that the console and the tail of the queue. -/
structure Loops (k k' : Kernel ω) : Prop where
  bus : k'.irq = (k.withKeyboards k'.keyboards).irq
  decoder : decoderOf k'.keyboards = decoderOf k.keyboards
  queue : k'.queue = k.queue ∨ k'.queue = k.queue.readStep
  inputs : k'.log.inputs = k.log.inputs
  lost : k'.log.lost = k.log.lost

theorem Loops.bus_eq (h : Loops k k') :
    k'.irq.bus = {k.irq.bus with keyboards := k'.keyboards} := by
  rw [h.bus]
  rfl

structure KeysInv (start k : Kernel ω) : Prop where
  bus : BusInv k.irq.bus
  delivered : ∀ i, k.irq.bus.delivered i = start.irq.bus.delivered i ++ reportsOf i k.log.inputs
  decoder : decoderOf k.keyboards = (decoderOf start.keyboards).after k.log.inputs
  reader : k.queue.Ok
  kept : Kept k.queue.stored ((decoderOf start.keyboards).decode k.log.inputs) k.log.lost
  overflow : k.log.lost = 0 ∨
    keybufCap ≤ ((decoderOf start.keyboards).decode k.log.inputs).length

theorem KeysInv.receives (h : KeysInv start k) {inputs : List Input} (hr : Receives t inputs k k')
    (hbus : BusInv k'.irq.bus) : KeysInv start k' := by
  obtain ⟨hdecoder, hevents⟩ := receiveAll_spec t inputs k.keyboards
  rw [← hr.keyboards] at hdecoder hevents
  have hinputs : k'.log.inputs = k.log.inputs ++ inputs := by
    rw [hr.log]
    rfl
  have hqueue : k'.queue = k.queue.pushAll ((decoderOf k.keyboards).decode inputs) := by
    rw [Kernel.queue, hevents, hr.phase, hr.log]
    rfl
  have hoffered : (decoderOf start.keyboards).decode k'.log.inputs =
      (decoderOf start.keyboards).decode k.log.inputs ++ (decoderOf k.keyboards).decode inputs := by
    rw [hinputs, Decoder.decode_append, ← h.decoder]
  have hlost : k'.log.lost =
      k.log.lost + (((decoderOf k.keyboards).decode inputs).length - k.room) := by
    rw [hr.log]
    rfl
  have hkept := h.kept.take k.room ((decoderOf k.keyboards).decode inputs)
  refine ⟨hbus, fun i => ?_, ?_, ?_, ?_, ?_⟩
  · rw [hr.delivered, h.delivered, hinputs, reportsOf_append, List.append_assoc]
  · rw [hdecoder, h.decoder, hinputs]
    exact (List.foldl_append ..).symm
  · rw [hqueue]
    exact Channel.pushAll_ok h.reader _
  · rw [hqueue, Channel.pushAll_stored, hoffered, hlost]
    exact hkept
  · have hunread : k.keyboards.kbd.events.used ≤ k.queue.stored.length := by
      rw [stored_length]
      exact Nat.le_add_left ..
    have hcount := h.kept.count
    have hroom : k.room = keybufCap - 1 - k.keyboards.kbd.events.used := rfl
    rw [hlost, hoffered, List.length_append]
    obtain hzero | hmany := h.overflow
    · omega
    · omega

theorem busInv_keyboards {bus : KbdBus} (h : BusInv bus) (keyboards : KeyboardSystem) :
    BusInv {bus with keyboards} := by
  refine ⟨fun i hi => ?_, h.unused, h.apart⟩
  obtain ⟨td, bytes, hok⟩ := h.pipe i hi
  exact ⟨td, bytes, hok.congr rfl (fun _ _ => rfl) rfl rfl rfl⟩

theorem KeysInv.loops (h : KeysInv start k) (hl : Loops k k') : KeysInv start k' := by
  have hbus := hl.bus_eq
  have hqueue : k'.queue.Ok ∧ k'.queue.stored = k.queue.stored := by
    obtain hsame | hread := hl.queue
    · rw [hsame]
      exact ⟨h.reader, rfl⟩
    · rw [hread]
      exact ⟨Channel.readStep_ok h.reader, Channel.readStep_stored h.reader⟩
  refine ⟨?_, fun i => ?_, ?_, hqueue.1, ?_, ?_⟩
  · rw [hbus]
    exact busInv_keyboards h.bus k'.keyboards
  · rw [hbus, hl.inputs]
    exact h.delivered i
  · rw [hl.decoder, hl.inputs]
    exact h.decoder
  · rw [hqueue.2, hl.inputs, hl.lost]
    exact h.kept
  · rw [hl.inputs, hl.lost]
    exact h.overflow

end Loop

end CasseOS.System
