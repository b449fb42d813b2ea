import ViCell.Lib.Runs

/-!
# Frames for the guest

`VirtioNetDevice` in `net/src/interface.rs` and the four places that pull frames from the
kernel's NIC: the main loop and `L2Recv` split them by address, the TLS connect loop and the
TLS transport do not.
-/

namespace ViCell.Net

open Lib List

abbrev Frame := List (BitVec 8)

structure VirtioNetDevice where
  rxQueue : List Frame
  guestRxQueue : List Frame
  guestMac : Option Frame

/-- The device, the frames that wait in the kernel, and what became of the earlier ones:
pulled under a registered address, polled by the host stack, popped for the guest. -/
structure Bridge where
  device : VirtioNetDevice
  nic : List Frame
  pulled : List (Option Frame × Frame)
  polled : List Frame
  popped : List Frame

def isBroadcast (frame : Frame) : Bool := 6 ≤ frame.length && frame.take 6 = replicate 6 0xFF

def isGuest (mac frame : Frame) : Bool := 6 ≤ frame.length && frame.take 6 = mac

/-- The queues a frame is put into by `pump_rx_split`. -/
def toGuest (mac : Option Frame) (frame : Frame) : Bool :=
  mac.any (fun mac => isBroadcast frame || isGuest mac frame)

def toHost (mac : Option Frame) (frame : Frame) : Bool :=
  mac.all (fun mac => isBroadcast frame || !isGuest mac frame)

namespace Bridge

def start : Bridge := ⟨⟨[], [], none⟩, [], [], [], []⟩

/-- The loop of both pumps: a frame goes into the queues that are asked for. -/
def pump (guest host : Option Frame → Frame → Bool) : Nat → Bridge → Bridge
  | 0, bridge => bridge
  | rounds + 1, bridge =>
    match bridge.nic with
    | [] => bridge
    | frame :: rest =>
      let mac := bridge.device.guestMac
      pump guest host rounds
        { bridge with
          device := { bridge.device with
            guestRxQueue := bridge.device.guestRxQueue ++ if guest mac frame then [frame] else []
            rxQueue := bridge.device.rxQueue ++ if host mac frame then [frame] else [] }
          nic := rest
          pulled := bridge.pulled ++ [(mac, frame)] }

def pumpRx (bridge : Bridge) : Bridge := bridge.pump (fun _ _ => false) (fun _ _ => true) 16

def pumpRxSplit (bridge : Bridge) : Bridge := bridge.pump toGuest toHost 16

def setGuestMac (bridge : Bridge) (mac : Frame) : Bridge :=
  { bridge with device := { bridge.device with guestMac := some mac } }

def popGuestRx (bridge : Bridge) : Bridge :=
  { bridge with
    device := { bridge.device with guestRxQueue := bridge.device.guestRxQueue.drop 1 }
    popped := bridge.popped ++ bridge.device.guestRxQueue.take 1 }

inductive Activity
  | receive (frame : Frame)
  | mainLoop
  | l2Recv (mac : Frame)
  /-- One round of the TLS connect loop or of the TLS transport. -/
  | tlsPoll
  /-- The host stack takes frames from its queue. -/
  | poll (count : Nat)

def step (bridge : Bridge) : Activity → Option Bridge
  | .receive frame => some { bridge with nic := bridge.nic ++ [frame] }
  | .mainLoop => some bridge.pumpRxSplit
  | .l2Recv mac => some (bridge.setGuestMac mac).pumpRxSplit.popGuestRx
  | .tlsPoll => some bridge.pumpRx
  | .poll count => some { bridge with
      device := { bridge.device with rxQueue := bridge.device.rxQueue.drop count }
      polled := bridge.polled ++ bridge.device.rxQueue.take count }

/-- No frame that a TLS round pulls is for the guest. -/
def Apart (bridge : Bridge) : Activity → Prop
  | .tlsPoll => ∀ frame ∈ bridge.nic.take 16, toGuest bridge.device.guestMac frame = false
  | _ => True

instance (bridge : Bridge) (activity : Activity) : Decidable (bridge.Apart activity) := by
  unfold Apart
  split <;> infer_instance

def routedBy (goes : Option Frame → Frame → Bool) (pulled : List (Option Frame × Frame)) :
    List Frame :=
  (pulled.filter (fun entry => goes entry.1 entry.2)).map Prod.snd

/-- Every pulled frame went, in order and once, where its address says. -/
structure Routed (bridge : Bridge) : Prop where
  guest : bridge.popped ++ bridge.device.guestRxQueue = routedBy toGuest bridge.pulled
  host : bridge.polled ++ bridge.device.rxQueue = routedBy toHost bridge.pulled

variable {bridge : Bridge}

theorem to_host_of_not_guest {mac : Option Frame} {frame : Frame}
    (apart : toGuest mac frame = false) : toHost mac frame = true := by
  cases mac with
  | none => rfl
  | some =>
    simp only [toGuest, toHost, Option.any_some, Option.all_some, Bool.or_eq_false_iff] at apart ⊢
    rw [apart.1, apart.2]
    rfl

theorem routed_by_snoc {goes : Option Frame → Frame → Bool} {seen queue : List Frame}
    {pulled : List (Option Frame × Frame)} (routed : seen ++ queue = routedBy goes pulled)
    (mac : Option Frame) (frame : Frame) :
    seen ++ (queue ++ if goes mac frame then [frame] else []) =
      routedBy goes (pulled ++ [(mac, frame)]) := by
  rw [← append_assoc, routed]
  unfold routedBy
  cases going : goes mac frame <;> simp [going]

theorem Routed.pump {guest host : Option Frame → Frame → Bool} (rounds : Nat)
    (routed : bridge.Routed)
    (agree : ∀ frame ∈ bridge.nic.take rounds,
      guest bridge.device.guestMac frame = toGuest bridge.device.guestMac frame ∧
        host bridge.device.guestMac frame = toHost bridge.device.guestMac frame) :
    (bridge.pump guest host rounds).Routed := by
  induction rounds generalizing bridge with
  | zero => exact routed
  | succ rounds ih =>
    unfold Bridge.pump
    cases waiting : bridge.nic with
    | nil => exact routed
    | cons frame rest =>
      rw [waiting, take_succ_cons, forall_mem_cons] at agree
      obtain ⟨⟨sameGuest, sameHost⟩, later⟩ := agree
      dsimp only
      rw [sameGuest, sameHost]
      exact ih ⟨routed_by_snoc routed.guest _ _, routed_by_snoc routed.host _ _⟩ later

theorem Routed.split (routed : bridge.Routed) : bridge.pumpRxSplit.Routed :=
  routed.pump 16 (fun _ _ => ⟨rfl, rfl⟩)

theorem taken_append (was queue : List Frame) (count : Nat) :
    was ++ queue.take count ++ queue.drop count = was ++ queue := by
  rw [append_assoc, take_append_drop]

theorem step_routed {after : Bridge} {activity : Activity} (routed : bridge.Routed)
    (apart : bridge.Apart activity) (taken : bridge.step activity = some after) :
    after.Routed := by
  cases activity with
  | receive =>
    cases taken
    exact ⟨routed.guest, routed.host⟩
  | mainLoop =>
    cases taken
    exact routed.split
  | l2Recv mac =>
    cases taken
    have registered : (bridge.setGuestMac mac).Routed := ⟨routed.guest, routed.host⟩
    exact ⟨(taken_append _ _ 1).trans registered.split.guest, registered.split.host⟩
  | tlsPoll =>
    cases taken
    refine routed.pump 16 ?_
    intro frame waiting
    have notGuest := apart frame waiting
    exact ⟨notGuest.symm, (to_host_of_not_guest notGuest).symm⟩
  | poll count =>
    cases taken
    exact ⟨routed.guest, (taken_append _ _ count).trans routed.host⟩

/-- As long as no TLS round pulls a frame for the guest, every frame is routed. -/
theorem frames_routed (bridge : Bridge) (reached : Reaches step Apart start bridge) :
    bridge.Routed :=
  reached.invariant (fun _ _ _ before apart taken => step_routed before apart taken) ⟨rfl, rfl⟩

def guestMac : Frame := [2, 0, 0, 0, 0, 1]

def guestFrame : Frame := guestMac ++ [7]

theorem guest_frame_routed :
    (finalState step start [.l2Recv guestMac, .tlsPoll, .receive guestFrame, .l2Recv guestMac,
        .tlsPoll]).popped = [guestFrame] ∧
      (finalState step start [.l2Recv guestMac, .tlsPoll, .receive guestFrame, .l2Recv guestMac,
        .tlsPoll]).Routed :=
  ⟨by decide +kernel, frames_routed _ (reaches_final (by decide +kernel) (by decide +kernel))⟩

/-- A TLS round hands the guest's frame to the host stack. -/
theorem tls_round_takes_guest_frame :
    ∃ bridge, runEvents step start [.l2Recv guestMac, .receive guestFrame, .tlsPoll] = some bridge ∧
      bridge.device.guestRxQueue = [] ∧ bridge.device.rxQueue = [guestFrame] ∧
      ¬ bridge.Routed := by
  refine ⟨finalState step start [.l2Recv guestMac, .receive guestFrame, .tlsPoll],
    final_state_eq (by decide +kernel), by decide +kernel, by decide +kernel, ?_⟩
  intro routed
  exact absurd routed.guest (by decide +kernel)

end Bridge

end ViCell.Net
