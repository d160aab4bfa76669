import CanfdDriver.System.Isolation

/-! Noninterference over whole runs: every call through the access structure of
an instance, every HAL call for it and every run of its handler, in any state
that the calls for both instances and the hardware can bring about. -/

namespace CanfdDriver.System

open Lib NoraCanfd Cmsis

def driverCan : Inst → ArmDriverCan
  | .inst1 => driverCan1
  | .inst2 => driverCan2

theorem driverCan_eq (i : Inst) : driverCan i = canDriverWrappers i.index := by cases i <;> rfl

/-- What clients of the HAL pass to it: the memory they hand over, and the user data they register
as far as it is a context of the wrapper. -/
structure Clients : Type where
  msgRam : BitVec 32 → Prop
  userData : Option (Fin 2) → Prop

/-- The calls through `Driver_CAN1` or `Driver_CAN2`, the calls of the HAL with the instance as
their argument, and the runs of its handler. -/
inductive Op (clients : Clients) (i : Inst) : {α : Type} → S α → Prop
  | getVersion : Op clients i (driverCan i).getVersion
  | getCapabilities : Op clients i (driverCan i).getCapabilities
  | canInitialize (cbUnit cbObject : Option Callback) :
      Op clients i ((driverCan i).canInitialize cbUnit cbObject)
  | canUnInitialize (env : Env) : Op clients i ((driverCan i).canUnInitialize env)
  | powerControl (state : PowerState) (env : Env) : Op clients i ((driverCan i).powerControl state env)
  | getClock : Op clients i (driverCan i).getClock
  | setBitrate (select : BitrateSelect) (bitrate bitSegments : BitVec 32) (env : Env) :
      Op clients i ((driverCan i).setBitrate select bitrate bitSegments env)
  | setMode (mode : ArmMode) (env : Env) : Op clients i ((driverCan i).setMode mode env)
  | objectGetCapabilities (objIdx : BitVec 32) :
      Op clients i ((driverCan i).objectGetCapabilities objIdx)
  | objectSetFilter (objIdx : BitVec 32) (operation : FilterOperation) (id arg : BitVec 32) :
      Op clients i ((driverCan i).objectSetFilter objIdx operation id arg)
  | objectConfigure (objIdx : BitVec 32) (objCfg : ObjConfig) :
      Op clients i ((driverCan i).objectConfigure objIdx objCfg)
  | messageSend (objIdx : BitVec 32) (info : Option MsgInfo) (data : Option (Nat → BitVec 8))
      (size : Nat) (env : Env) : Op clients i ((driverCan i).messageSend objIdx info data size env)
  | messageRead (args : ReadArgs) : Op clients i ((driverCan i).messageRead args)
  | control (code arg : BitVec 32) (env : Env) : Op clients i ((driverCan i).control code arg env)
  | getStatus : Op clients i (driverCan i).getStatus
  | halIsPresent : Op clients i (isPresent i)
  | halIsInitialized : Op clients i (isInitialized i)
  | halGetDevice : Op clients i (getDevice i)
  | halGetRegs : Op clients i (getRegs i)
  | halGetMode : Op clients i (getMode i)
  | halSetMode (mode : Mode) : Op clients i (System.setMode i mode)
  | halModuleEnable (enable : Bool) : Op clients i (moduleEnable i enable)
  | halInit (config : Option Config) (toConfig toMode : Poll) :
      (∀ cfg, config = some cfg → cfg.Accepted → clients.msgRam cfg.msgRam) →
      Op clients i (init i config toConfig toMode)
  | halDeinit (toOff : Poll) : Op clients i (deinit i toOff)
  | halSetBitrate (canClkHz nominalBps dataBps : BitVec 32) (samplePct : BitVec 8)
      (toConfig toMode : Poll) :
      Op clients i (System.setBitrate i canClkHz nominalBps dataBps samplePct toConfig toMode)
  | halTransmit (frame : Option Frame) (room : Poll) : Op clients i (transmit i frame room)
  | halRxAvailable : Op clients i (rxAvailable i)
  | halReceive (frame : Option Frame) (p : Poll) (arriving : Obj) :
      Op clients i (receive i frame p arriving)
  | halIsrSetCallback (callback : Option EventCallback) (userData : Option (Fin 2)) :
      clients.userData userData → Op clients i (isrSetCallback i callback userData)
  | halIsrEnable (priority : BitVec 8) : Op clients i (isrEnable i priority)
  | halIsrDisable : Op clients i (isrDisable i)
  | halTxStart (frame : Option Frame) (room : Poll) : Op clients i (txStart i frame room)
  | halTxIsBusy : Op clients i (txIsBusy i)
  | halTxAbort : Op clients i (txAbort i)
  | halGetStatus : Op clients i (System.getStatus i)
  | halClearRxOverflow : Op clients i (clearRxOverflow i)
  | irqHandler (f : Frame) : Op clients i (handler f i)

def anyClients : Clients := ⟨fun _ => True, fun _ => True⟩

/-- Clients that hand over memory of their own and have no foreign context to register: those of
the wrapper are static. -/
def owners (rams : MsgRams) (i : Inst) : Clients where
  msgRam := Owned (rams.region i)
  userData ud := ud = none ∨ ud = some i.index

variable {rams : MsgRams} {clients : Clients} {i : Inst} {α : Type} {p : S α} {own : Prop}

theorem traffic_yields {q : M α} (h : q.Moves Traffic) : q.Yields HomeStep :=
  (h.mono fun _ _ hcd => HomeStep.of_traffic hcd).yields

theorem arrive_traffic (o : Obj) (c : Chan) : Traffic c (ramPort.arrive o c) :=
  ⟨rfl, ⟨_, rfl⟩, rfl, rfl, rfl, id, rfl, rfl, rfl, id, fun _ => rfl, fun _ => id⟩

theorem release_traffic (c : Chan) : Traffic c (ramPort.release c) := by
  have hua : Traffic c (c.setReg .fifoua1 (nextSlot (c.regs .fifoba) (c.regs .fifoua1))) := by
    have hkept (v : BitVec 32) : v &&& keptBits .fifoua1 = 0 := BitVec.and_zero
    exact .setReg ((hkept _).trans (hkept _).symm) fun _ => BitVec.and_zero
  exact hua.trans ⟨rfl, ⟨_, rfl⟩, rfl, rfl, rfl, id, rfl, rfl, rfl, id, fun _ => rfl, fun _ => id⟩

theorem ramHandler_moves {app : App} {f : Frame} : (handlerFrom ramPort app f).Moves Traffic :=
  irqHandler_moves fun cb events ud => eventCallbackFrom_moves (fun _ _ h => h.traffic) arrive_traffic
    release_traffic app f cb events ud

theorem isolated_of_reads {a : Chan → α} (hp : (chan i).Mirrors p (.get >>= fun c => pure (a c)))
    (ha : ∀ r c, a (outside (rams.region i) r c) = a c) : Isolated rams i own p := by
  refine isolated_of_blind hp (fun r => .get_bind (fun c => ?_) fun _ => .pure _) ?_
  · rw [ha]
  · exact .bind .get fun _ => .pure _

theorem Op.isolated (h : Op clients i p) : Isolated rams i (clients = owners rams i) p := by
  cases h with
  | getVersion =>
    rw [driverCan_eq]
    exact isolated_of_blind (.pure _) (fun _ => .pure _) (.pure _)
  | getCapabilities =>
    rw [driverCan_eq]
    exact isolated_of_blind (.pure _) (fun _ => .pure _) (.pure _)
  | canInitialize cbUnit cbObject =>
    rw [driverCan_eq]
    exact isolated_of_blind (onIndex_mirrors _) (fun _ => canInitialize_blind _ _)
      (canInitialize_home _ _).yields
  | canUnInitialize env =>
    rw [driverCan_eq]
    exact isolated_of_blind canUnInitialize_mirrors (fun _ => canUnInitialize_blind)
      fun _ _ _ h => .of_outcome (canUnInitialize_outcome h)
  | powerControl state env =>
    rw [driverCan_eq]
    exact isolated_of_blind (canPowerControl_mirrors _) (fun _ => canPowerControl_blind _)
      fun _ _ _ h => .of_outcome (canPowerControl_outcome h)
  | getClock =>
    rw [driverCan_eq]
    exact isolated_of_reads canGetClock_mirrors fun _ _ => rfl
  | setBitrate select bitrate bitSegments env =>
    rw [driverCan_eq]
    exact isolated_of_blind (onIndex_mirrors _) (fun _ => canSetBitrate_blind _ _ _)
      fun _ _ _ h => .of_outcome (canSetBitrate_outcome h)
  | setMode mode env =>
    rw [driverCan_eq]
    exact isolated_of_blind (canSetMode_mirrors _) (fun _ => canSetMode_blind _)
      fun _ _ _ h => .of_outcome (canSetMode_outcome h)
  | objectGetCapabilities objIdx =>
    rw [driverCan_eq]
    exact isolated_of_reads (canObjectGetCapabilities_mirrors _) fun _ _ => rfl
  | objectSetFilter objIdx operation id arg =>
    rw [driverCan_eq]
    exact isolated_of_blind (.pure _) (fun _ => .pure _) (.pure _)
  | objectConfigure objIdx objCfg =>
    rw [driverCan_eq]
    cases objCfg <;> exact isolated_of_blind (.pure _) (fun _ => .pure _) (.pure _)
  | messageSend objIdx info data size env =>
    rw [driverCan_eq]
    exact isolated_of_inStep (onIndex_mirrors _) (fun _ _ => canMessageSend_inStep _ _ _ _)
      (traffic_yields (canMessageSend_moves _ _ _ _ _))
  | messageRead args =>
    rw [driverCan_eq]
    exact isolated_of_blind (onIndex_mirrors _) (fun _ => canMessageRead_blind _)
      (traffic_yields (canMessageRead_moves _))
  | control code arg env =>
    rw [driverCan_eq]
    exact isolated_of_blind (canControl_mirrors _ _) (fun _ => canControl_blind _ _)
      fun _ _ _ h => .of_outcome (canControl_outcome h)
  | getStatus =>
    rw [driverCan_eq]
    exact isolated_of_blind (onIndex_mirrors _) (fun _ => canGetStatus_blind) canGetStatus_reads.yields
  | halIsPresent => exact isolated_of_reads isPresent_mirrors fun _ _ => rfl
  | halIsInitialized => exact isolated_of_reads isInitialized_mirrors fun _ _ => rfl
  | halGetDevice => exact isolated_of_reads getDevice_mirrors fun _ _ => rfl
  | halGetRegs => exact isolated_of_reads regs_mirrors fun _ _ => rfl
  | halGetMode => exact isolated_of_reads getMode_mirrors fun _ _ => rfl
  | halSetMode mode =>
    have hhome : (NoraCanfd.setMode mode).Moves HomeStep := .modify fun _ => .same rfl rfl rfl
    exact isolated_of_blind (setMode_mirrors mode) (fun _ => setMode_blind _) hhome.yields
  | halModuleEnable enable => exact moduleEnable_isolated enable
  | halInit config toConfig toMode hown =>
    refine isolated_of_mirrors (onInst_mirrors _)
      (fun c _ _ => confined_of_blind (fun _ => init_blind _ _ _) c) ?_
    rintro rfl
    exact init_home _ _ hown
  | halDeinit toOff =>
    exact isolated_of_blind (onInst_mirrors _) (fun _ => deinit_blind _) (deinit_home _)
  | halSetBitrate canClkHz nominalBps dataBps samplePct toConfig toMode =>
    exact isolated_of_blind (onInst_mirrors _) (fun _ => setBitrate_blind _ _ _ _ _ _)
      (setBitrate_home _ _ _ _ _ _)
  | halTransmit frame room =>
    exact isolated_of_inStep (onInst_mirrors _) (fun _ _ => transmit_inStep _ _)
      (traffic_yields (transmit_moves _ _))
  | halRxAvailable =>
    exact isolated_of_blind (onInst_mirrors _) (fun _ => rxAvailable_blind) rxAvailable_reads.yields
  | halReceive frame p arriving =>
    exact isolated_of_inStep (onInst_mirrors _) (fun _ _ => receive_inStep _ _ _)
      (traffic_yields (receiveFrom_moves arrive_traffic release_traffic _ _ _))
  | halIsrSetCallback callback userData hown =>
    refine isrSetCallback_isolated callback ?_
    rintro rfl
    exact hown
  | halIsrEnable priority =>
    exact isolated_of_blind (isrEnable_mirrors _) (fun _ => isrEnable_blind _) (isrEnable_home _).yields
  | halIsrDisable =>
    exact isolated_of_blind isrDisable_mirrors (fun _ => isrDisable_blind) isrDisable_home.yields
  | halTxStart frame room =>
    exact isolated_of_inStep (txStart_mirrors _ _) (fun _ _ => txStart_inStep _ _)
      (txStart_home _ _).yields
  | halTxIsBusy => exact isolated_of_reads txIsBusy_mirrors fun _ _ => rfl
  | halTxAbort =>
    exact isolated_of_blind txAbort_mirrors (fun _ => txAbort_blind) (traffic_yields txAbort_moves)
  | halGetStatus =>
    exact isolated_of_blind (onInst_mirrors _) (fun _ => getStatus_blind) getStatus_reads.yields
  | halClearRxOverflow =>
    exact isolated_of_blind clearRxOverflow_mirrors (fun _ => clearRxOverflow_blind)
      clearRxOverflow_home.yields
  | irqHandler f =>
    exact isolated_of_inStep (handler_mirrors _) (fun _ _ => handler_inStep _ _)
      (traffic_yields ramHandler_moves)

/-- The state a program starts from, as far as the wiring goes: the tables of the HAL are zero, and
`g_can_ctx` gives each instance an array of its own. -/
structure Boot (rams : MsgRams) (m : System) : Prop where
  ud : ∀ i, m.ud i = none
  initialized : ∀ i, (m.node i).initialized = false
  msgRam : ∀ k, Owned (rams.region (halInst k)) (m.ctx k).msgRam.addr

/-- A call for either instance comes to its end, with arguments that its caller owns; a module
changes what belongs to it; or the memory changes. -/
inductive Step (rams : MsgRams) (m : System) : System → Prop
  | call {i : Inst} {α : Type} {p : S α} {a : α} {n : System} : Op (owners rams i) i p →
      p.exec m = .ok (a, n) → Step rams m n
  | hardware (i : Inst) (hw : Hw) : Step rams m ((chan i).put (((chan i).get m).sense hw) m)
  | memory (ram : BitVec 32 → BitVec 32) : Step rams m { m with ram := ram }

abbrev Reachable (rams : MsgRams) : System → System → Prop := Relation.ReflTransGen (Step rams)

variable {boot m n : System}

theorem Boot.wired (h : Boot rams m) : Wired rams m where
  ud i := .inl (h.ud i)
  home i := by
    refine ⟨?_, fun hup => ?_⟩
    · have hown := h.msgRam i.index
      rwa [halInst_index] at hown
    · have hdown := h.initialized i
      cases hdown.symm.trans hup

theorem HomeStep.sense (c : Chan) (hw : Hw) : HomeStep c (c.sense hw) := .of_traffic (.sense hw)

theorem Step.wired (h : Step rams m n) (hm : Wired rams m) : Wired rams n := by
  cases h with
  | call hop hexec => exact hop.isolated.wired rfl _ _ _ hm hexec
  | hardware i hw => exact hm.put ((hm.home i).step (HomeStep.sense _ hw))
  | memory ram => exact ⟨hm.ud, fun i => ⟨(hm.home i).ctx, (hm.home i).fifoba⟩⟩

theorem Reachable.wired (hboot : Boot rams boot) (h : Reachable rams boot m) : Wired rams m := by
  induction h with
  | refl => exact hboot.wired
  | tail _ hstep ih => exact hstep.wired ih

/-- In every state that a run reaches: a call for one instance changes nothing of the other one, at
no point of it, and from every state that is the same as far as its own instance goes it does the
same and ends alike. -/
theorem instances_never_interfere (hboot : Boot rams boot) (hm : Reachable rams boot m)
    (hop : Op anyClients i p) (hshown : QueuesShownAt i m) :
    (∀ t, p.Passes m t → SamePart rams i.other m t) ∧
      ∀ boot' n, Boot rams boot' → Reachable rams boot' n → SamePart rams i m n →
        (∀ t, p.Passes m t → ∃ t', p.Passes n t' ∧ SamePart rams i t t') ∧
          Alike rams i (p.exec m) (p.exec n) := by
  have hwired := Reachable.wired hboot hm
  refine ⟨fun t ht => hop.isolated.frame m t hwired hshown ht, fun boot' n hboot' hn hmn => ?_⟩
  have hwired' := Reachable.wired hboot' hn
  exact ⟨fun t ht => hop.isolated.passes m n t hwired hwired' hshown hmn ht,
    hop.isolated.alike m n hwired hwired' hshown hmn⟩

def exampleRams : MsgRams where
  region
    | .inst1 => fun a => 0x4000 ≤ a ∧ a < 0x4240
    | .inst2 => fun a => 0x5000 ≤ a ∧ a < 0x5240
  disjoint a h h' := by
    have hlt : a.toNat < 0x4240 := h.2
    have hle : 0x5000 ≤ a.toNat := h'.1
    omega

def bootSystem : System where
  present _ := true
  mdDefined _ := true
  ctx
    | 0 => resetChan.ctx
    | 1 => { resetChan.ctx with msgRam := ⟨0x5000, 576, by decide, by decide, exampleRam.size_le⟩ }
  node _ := resetChan.node
  mode _ := .none
  cb _ := none
  ud _ := none
  txBusy _ := false
  irqPriority _ := 0
  isrEnabled _ := false
  sfr
    | .c1 .txqua => 0x4000
    | .c1 .fifoua1 => 0x4120
    | _ => 0
  line _ := ⟨false, false, 4⟩
  md _ := false
  ram _ := 0
  rxFifo _ := []
  trace _ := []

def exampleSend : S Status :=
  transmit .inst1 (some ⟨1, false, false, false, 0, fun _ => 0⟩) (readsOnce fifostaTfnrfnif)

theorem bootSystem_boot : Boot exampleRams bootSystem where
  ud _ := rfl
  initialized _ := rfl
  msgRam k := by
    match k with
    | 0 => exact (by decide : ∀ n, n < 144 → 0x4000 ≤ objAddr 0x4000 n ∧ objAddr 0x4000 n < 0x4240)
    | 1 => exact (by decide : ∀ n, n < 144 → 0x5000 ≤ objAddr 0x5000 n ∧ objAddr 0x5000 n < 0x5240)

theorem instances_never_interfere_example : ∃ m, Reachable exampleRams bootSystem m ∧
    (m.node .inst1).initialized = true ∧
    (∀ t, exampleSend.Passes m t → SamePart exampleRams .inst2 m t) ∧
      ∀ boot' n, Boot exampleRams boot' → Reachable exampleRams boot' n →
        SamePart exampleRams .inst1 m n →
        (∀ t, exampleSend.Passes m t → ∃ t', exampleSend.Passes n t' ∧
          SamePart exampleRams .inst1 t t') ∧
          Alike exampleRams .inst1 (exampleSend.exec m) (exampleSend.exec n) := by
  have hends : (init .inst1 (some exampleConfig) (shows opmodeConfig) (shows opmodeNormalFd)).ends
      bootSystem (fun _ m => (m.node .inst1).initialized &&
        m.sfr (.c1 .txqua) == objAddr (m.sfr (.c1 .fifoba)) 0 &&
        m.sfr (.c1 .fifoua1) == rxSlot (m.sfr (.c1 .fifoba)) 0) = true := by decide +kernel
  obtain ⟨st, m, hexec, hm⟩ := Prog.ends_iff.mp hends
  rw [Bool.and_eq_true, Bool.and_eq_true, beq_iff_eq, beq_iff_eq] at hm
  obtain ⟨⟨hup, htxqua⟩, hfifoua1⟩ := hm
  have hown : ∀ cfg, some exampleConfig = some cfg → cfg.Accepted →
      Owned (exampleRams.region .inst1) cfg.msgRam := by
    rintro _ ⟨⟩ -
    exact bootSystem_boot.msgRam 0
  have hreach : Reachable exampleRams bootSystem m := .single (.call (.halInit _ _ _ hown) hexec)
  have hshown : QueuesShownAt .inst1 m :=
    ⟨fun _ => ⟨0, by decide, htxqua⟩, fun _ => ⟨0, by decide, hfifoua1⟩⟩
  exact ⟨m, hreach, hup, instances_never_interfere bootSystem_boot hreach (.halTransmit _ _) hshown⟩

end CanfdDriver.System
