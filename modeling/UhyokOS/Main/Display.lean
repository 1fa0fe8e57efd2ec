import UhyokOS.Layer.Deferred
import UhyokOS.Main.Delivery
import UhyokOS.Terminal.Damage

/-!
# What the screen shows

The running kernel together with the layers. The task of the terminal draws in its window and asks
for a redraw by a message; the main task carries out the redraws and, in between, moves and
activates layers and draws in its own windows.

* `LayerEffect`: what a step of the kernel means for the layers.
* `InStep`: only pixels that messages under way are about may be stale.
-/

set_option linter.unusedSectionVars false

namespace UhyokOS

open Transition Terminal LayerManager FrameBufferConfig

/-! ## The system -/

/-- The kernel and the layers. -/
structure Display (Q : Type) (config : FrameBufferConfig) where
  kernel : Kernel Q
  layers : LayerSystem config

/-- What may happen next. -/
inductive DisplayOp
  /-- A step of the kernel; the rectangle is an unassigned variable of `Draw`. -/
  | kernel (op : KernelOp) (junk : Rectangle)
  /-- The main task moves or activates a layer or draws in one of its windows. -/
  | redraw (op : RedrawOp)

/-- The call, on the layers. -/
def LayerCall.layerOp (junk : Rectangle) : LayerCall → LayerOp
  | .move id pos => .move id pos junk
  | .moveRelative id pos => .moveRelative id pos junk
  | .draw id => .drawLayer id junk
  | .drawArea id area => .drawLayerArea id area junk

variable {Q : Type} {config : FrameBufferConfig}

/-- A terminal that is open makes its calls on the window of its layer. -/
def LayerSystem.drawTerminal (font : Font) (s : LayerSystem config) :
    Option OpenTerminal → Option OpenTerminal → Option (LayerSystem config)
  | some t, some t' =>
      let calls := t'.terminal.drawn.drop t.terminal.drawn.length
      if calls.isEmpty then some s
      else s.withManager (s.manager.updateWindow t'.layerId fun window =>
        DrawCall.performAll font window calls)
  | _, _ => some s

namespace Display

variable [PriorityQueue Q Timer]

/-- One step. -/
def step (m : Machine) (font : Font) (d : Display Q config) : DisplayOp → Option (Display Q config)
  | .kernel op junk => (d.kernel.step m op).bind fun k =>
      (d.layers.drawTerminal font d.kernel.terminal k.terminal).bind fun layers =>
        let calls := k.layerCalls.drop d.kernel.layerCalls.length
        (run (LayerSystem.step font) layers (calls.map (LayerCall.layerOp junk))).map fun layers =>
          ⟨k, layers⟩
  | .redraw op => (op.step font d.layers).map fun layers => { d with layers := layers }

end Display

/-- The key that the terminal is to deal with is one whose rectangle is complete: what `InputKey` draws
lies in the rectangle that it returns. The source does not ensure it; `Terminal.Damage` says for which
keys and windows it holds. -/
def Display.KeyCovered (d : Display Q config) : Prop :=
  ∀ t ∈ d.kernel.terminal, ∀ msg ∈ d.kernel.mail.next?, ∀ key ∈ msg.key?,
    ∀ layer ∈ d.layers.manager.deref (d.layers.manager.findLayer t.layerId),
      ∀ window ∈ layer.window, t.terminal.Covered window key

/-- The hardware and the scheduler keep to `KernelOp.Permitted`, and the main task draws while it
executes. A key with an incomplete rectangle is not permitted: what is drawn outside of it is on no
redraw's way to the screen. -/
def DisplayOp.Permitted (d : Display Q config) : DisplayOp → Prop
  | .kernel op _ => op.Permitted d.kernel ∧ (op = .terminal → d.KeyCovered)
  | .redraw op => d.kernel.mail.sys.cpu.executing = 0 ∧ op.Permitted d.layers

/-! ## Requests under way -/

/-- The redraw that a call is. -/
def LayerCall.request? : LayerCall → Option RedrawRequest
  | .drawArea id area => some ⟨id, area⟩
  | _ => none

namespace Kernel

/-- The calls that the main task has been asked for. -/
def called (k : Kernel Q) : List LayerCall := (k.mail.sent 0).filterMap Message.layerCall?

/-- Those that it has in hand or in its mailbox. -/
def callsUnderWay (k : Kernel Q) : List LayerCall :=
  k.main.callInHand ++ (k.mail.sys.manager.pending 0).filterMap Message.layerCall?

/-- The redraws that are under way. -/
def requests (k : Kernel Q) : List RedrawRequest := k.callsUnderWay.filterMap LayerCall.request?

end Kernel

/-! ## What a step means for the layers -/

/-- The terminal deals with a message and asks for a redraw, the main task carries out a call, or
nothing happens that concerns the layers. -/
inductive LayerEffect (m : Machine) (k k' : Kernel Q) (op : KernelOp) : Prop
  | answer (t : OpenTerminal) (msg : Message) (t' : Terminal) (area : Rectangle)
      (hop : op = .terminal) (hterminal : k.terminal = some t) (hnext : k.mail.next? = some msg)
      (hhandle : Kernel.terminalHandle m t.terminal msg = some (t', some area))
      (hterminal' : k'.terminal = some { t with terminal := t' })
      (hcalled : k'.called = k.called ++ [.drawArea t.layerId area])
      (hcalls : k'.layerCalls = k.layerCalls)
  | carryOut (call : LayerCall) (hinHand : k.main.callInHand = [call])
      (hterminal : k'.terminal = k.terminal) (hcalled : k'.called = k.called)
      (hcalls : k'.layerCalls = k.layerCalls ++ [call])
  | nothing (hterminal : k'.terminal = k.terminal) (hcalled : k'.called = k.called)
      (hcalls : k'.layerCalls = k.layerCalls)

namespace LayerEffect

variable [PriorityQueue Q Timer] {m : Machine} {k k' : Kernel Q} {op : KernelOp}

/-- A message that calls for no redraw leaves the terminal alone. -/
theorem terminalHandle_none {t t' : Terminal} {msg : Message}
    (h : Kernel.terminalHandle m t msg = some (t', none)) : t' = t := by
  unfold Kernel.terminalHandle at h
  split at h
  · cases h
  · obtain ⟨x, -, heq⟩ := Option.map_eq_some_iff.mp h
    cases heq
  · cases h
  · cases h
    rfl

theorem of_mainStep (hstep : MainStep k k') : LayerEffect m k k' op := by
  cases hstep with
  | newTask hmain mail hinv hmanager hcpu hsent hreceived =>
      refine .nothing rfl ?_ rfl
      show (mail.sent 0).filterMap _ = _
      rw [hsent]
      rfl
  | wakeTask hmain mail hcpu hhands hwakes =>
      refine .nothing rfl ?_ rfl
      show (mail.sent 0).filterMap _ = _
      rw [hhands.filterMap_sent]
      exact List.append_nil _
  | take hmain msg msgs mail hpending htakes =>
      refine .nothing rfl ?_ rfl
      show (mail.sent 0).filterMap _ = _
      rw [htakes.sent]
      rfl
  | rest hmain mail hpending hrests =>
      refine .nothing rfl ?_ rfl
      show (mail.sent 0).filterMap _ = _
      rw [hrests.sent]
      rfl
  | notify i push pushes driver hmain mail hcpu hhands =>
      refine .nothing rfl ?_ rfl
      show (mail.sent 0).filterMap _ = _
      rw [hhands.filterMap_sent, handTo_self]
      exact List.append_nil _
  | send msg hmain mail hcpu hhands hwakes =>
      exact .nothing rfl (hhands.filterMap_sent_handTo_ne (p := 0) (by decide)) rfl
  | layer op layerId x y w height hmain =>
      exact .carryOut (processLayerMessage op layerId x y w height) (by rw [hmain]; rfl) rfl rfl rfl
  | _ => exact .nothing rfl rfl rfl

theorem of_terminalStep (hopen : k.terminal.isSome) (hexec : k.mail.sys.cpu.executing = 2)
    (hstep : TerminalStep m k k') : LayerEffect m k k' .terminal := by
  cases hstep with
  | start hterminal =>
      rw [hterminal] at hopen
      cases hopen
  | rest t hterminal mail hpending hrests =>
      refine .nothing rfl ?_ rfl
      show (mail.sent 0).filterMap _ = _
      rw [hrests.sent]
      rfl
  | ignore t hterminal msg msgs hpending t' hhandle mail htakes =>
      refine .nothing ?_ ?_ rfl
      · show some { t with terminal := t' } = k.terminal
        rw [terminalHandle_none hhandle, hterminal]
      · show (mail.sent 0).filterMap _ = _
        rw [htakes.sent]
        rfl
  | answer t hterminal msg msgs hpending t' area hhandle taken mail htakes hcpu hhands hwakes =>
      refine .answer t msg t' area rfl hterminal ?_ hhandle rfl ?_ rfl
      · unfold Mail.next?
        rw [hexec, hpending]
        rfl
      · show (mail.sent 0).filterMap _ = _
        rw [hhands.filterMap_sent, htakes.sent, handTo_self]
        rfl

/-- **The inversion lemma.** -/
theorem of_step (hopen : k.terminal.isSome) (hstep : KernelStep m k op k') :
    LayerEffect m k k' op := by
  cases hstep with
  | interruptXHCI hirq mail hcpu hhands hwakes =>
      refine .nothing rfl ?_ rfl
      show (mail.sent 0).filterMap _ = _
      rw [hhands.filterMap_sent, handTo_self]
      exact List.append_nil _
  | interruptTimer hrange k' reported result htimer =>
      rw [htimer.kernel]
      refine .nothing rfl ?_ rfl
      show (k'.mail.sent 0).filterMap _ = _
      rw [htimer.hands.filterMap_sent, handTo_self, filterMap_timers fun _ => rfl]
      exact List.append_nil _
  | main hexec k' hmain => exact of_mainStep hmain
  | terminal hexec hlate k' hterminal => exact of_terminalStep hopen hexec hterminal
  | _ => exact .nothing rfl rfl rfl

end LayerEffect

/-! ## What the terminal draws -/

/-- An answer to a message: what is drawn changes pixels in the rectangle that is asked for. -/
structure Terminal.Answer (font : Font) (t : Terminal) (w : Window) (t' : Terminal)
    (area : Rectangle) (calls : List DrawCall) (w' : Window) : Prop where
  drawn : t'.drawn = t.drawn ++ calls
  nonempty : calls ≠ []
  performed : DrawCall.performAll font w calls = some w'
  frame : w.SameFrame w'
  proper : area.Proper
  covers : w.ChangedWithin w' area

section Terminal

variable {font : Font} {m : Machine} {t t' : Terminal} {w : Window} {msg : Message} {key : Key}
  {area : Rectangle}

/-- A key whose rectangle is complete. -/
theorem inputKey_answer (h : DamageInv t) (hw : IsTerminalWindow w) (hcovered : t.Covered w key)
    (heq : t.inputKey m key = some (t', area)) :
    ∃ calls w', t.Answer font w t' area calls w' := by
  obtain ⟨calls, hdrawn, hall, hdamage⟩ := inputKey_drew h heq
  obtain ⟨w', hperform, hiff⟩ := changedWithin_iff font hw h.inRow.cursorBox
    (h.inputKey heq).inRow.cursorBox hall
  have hfits := (h.inputKey heq).fits
  rw [hdrawn, List.forall_mem_append] at hfits
  obtain ⟨w'', hperform', hframe, -⟩ := DrawCall.performAll_spec font fun call hmem =>
    hw.bounds ▸ hfits.2 call hmem
  cases hperform.symm.trans hperform'
  exact ⟨_, w', hdrawn, List.cons_ne_nil _ _, hperform, hframe, hdamage.proper,
    hiff.mpr ((covered_iff h.inRow hdamage h.shownLine_lt).mpr hcovered)⟩

/-- A blink changes pixels of the cursor only. -/
theorem blinkCursor_answer (h : DamageInv t) (hw : IsTerminalWindow w) :
    ∃ calls w', t.Answer font w t.blinkCursor.1 t.blinkCursor.2 calls w' := by
  let color := if !t.cursorVisible then toColor 0xa47fff else toColor 0xC8B2FF
  obtain ⟨w', hperform, hframe, hink⟩ := DrawCall.fill_spec font color hw.solid
    (hw.bounds ▸ h.inRow.cursorBox)
  refine ⟨[.fillRectangle false t.calcCursorPos ⟨7, 15⟩ color], w', rfl, List.cons_ne_nil _ _, ?_,
    hframe, ⟨Int.natCast_nonneg 7, Int.natCast_nonneg 15⟩, ?_⟩
  · rw [DrawCall.performAll_cons, hperform]
    rfl
  · intro p hchanged
    by_contra hout
    rw [hink p] at hchanged
    exact hchanged (if_neg hout)

/-- **What the terminal draws for a message** changes pixels in the rectangle only. -/
theorem terminalHandle_answer (h : DamageInv t) (hw : IsTerminalWindow w)
    (hcovered : ∀ key ∈ msg.key?, t.Covered w key)
    (heq : Kernel.terminalHandle m t msg = some (t', some area)) :
    ∃ calls w', t.Answer font w t' area calls w' := by
  obtain ⟨type, srcTask, arg⟩ := msg
  cases type with
  | kTimerTimeout =>
      cases heq
      exact blinkCursor_answer h hw
  | kKeyPush =>
      cases arg with
      | keyboard modifier keycode ascii =>
          obtain ⟨⟨u, area'⟩, hinput, hpair⟩ := Option.map_eq_some_iff.mp heq
          cases hpair
          exact inputKey_answer h hw (hcovered _ rfl) hinput
      | _ => cases heq
  | _ => cases heq

/-- The invariant of the terminal, whatever the message. -/
theorem DamageInv.terminalHandle {result : Option Rectangle} (h : DamageInv t)
    (heq : Kernel.terminalHandle m t msg = some (t', result)) : DamageInv t' := by
  obtain ⟨type, srcTask, arg⟩ := msg
  cases type with
  | kTimerTimeout =>
      cases heq
      exact damageInv_keeps t .blinkCursor _ h trivial rfl
  | kKeyPush =>
      cases arg with
      | keyboard modifier keycode ascii =>
          obtain ⟨⟨u, area'⟩, hinput, hpair⟩ := Option.map_eq_some_iff.mp heq
          cases hpair
          exact h.inputKey hinput
      | _ => cases heq
  | _ =>
      cases heq
      exact h

theorem DamageInv.run {msgs : List Message} {areas : List Rectangle} (h : DamageInv t)
    (heq : t.run m msgs = some (t', areas)) : DamageInv t' := by
  induction msgs generalizing t areas with
  | nil =>
      cases heq
      exact h
  | cons msg msgs ih =>
      obtain ⟨⟨t₁, area₁⟩, hfirst, hmap⟩ := Option.bind_eq_some_iff.mp heq
      obtain ⟨⟨t₂, areas₂⟩, hrest, hpair⟩ := Option.map_eq_some_iff.mp hmap
      cases hpair
      exact ih (h.terminalHandle hfirst) hrest

end Terminal

namespace Kernel.Reachable

variable [PriorityQueue Q Timer] {m : Machine} {tick : Nat} {k : Kernel Q}

/-- The terminal of the running kernel. -/
theorem damageInv (htick : tick < kTimer05Sec) (hr : k.Reachable m tick) {t : OpenTerminal}
    (ht : k.terminal = some t) : DamageInv t.terminal := by
  obtain ⟨areas, hrun, -⟩ := (hr.output htick).opened t ht
  exact (damageInv_constructed (Nat.zero_le 8)).run hrun

/-- The calls that are under way are those asked for and not carried out. -/
theorem called_eq (htick : tick < kTimer05Sec) (hr : k.Reachable m tick) :
    k.called = k.layerCalls ++ k.callsUnderWay := by
  unfold Kernel.called Kernel.callsUnderWay
  rw [hr.requests_eq htick, List.append_assoc]

/-- All of them are redraws of the terminal. -/
theorem callsUnderWay_eq (htick : tick < kTimer05Sec) (hr : k.Reachable m tick) {call : LayerCall}
    (hcall : call ∈ k.callsUnderWay) : ∃ id area, call = .drawArea id area := by
  have hmem : call ∈ k.called := by
    rw [hr.called_eq htick]
    exact List.mem_append_right _ hcall
  cases hterminal : k.terminal with
  | none =>
      have hempty : k.called = [] := ((hr.output htick).closed hterminal).2
      rw [hempty] at hmem
      cases hmem
  | some t =>
      obtain ⟨areas, -, hcalled⟩ := (hr.output htick).opened t hterminal
      have hmem' : call ∈ areas.map (LayerCall.drawArea t.layerId) := hcalled ▸ hmem
      obtain ⟨area, -, rfl⟩ := List.mem_map.mp hmem'
      exact ⟨t.layerId, area, rfl⟩

end Kernel.Reachable

/-! ## Every run -/

namespace Display

/-- The terminal is open, and only the pixels that requests under way are about may be stale. -/
structure InStep (font : Font) (d : Display Q config) : Prop where
  deferred : d.layers.Deferred font d.kernel.requests
  terminal : ∃ t, d.kernel.terminal = some t ∧ d.layers.Client t.layerId terminalSize

variable [PriorityQueue Q Timer] {m : Machine} {tick : Nat} {font : Font} {d d' : Display Q config}
  {k : Kernel Q} {op : KernelOp} {junk : Rectangle}

/-- The requests after a step, from the calls. -/
theorem callsUnderWay_of_effect (htick : tick < kTimer05Sec) (hr : d.kernel.Reachable m tick)
    (hr' : k.Reachable m tick) {new done : List LayerCall}
    (hcalled : k.called = d.kernel.called ++ new)
    (hcalls : k.layerCalls = d.kernel.layerCalls ++ done) :
    done ++ k.callsUnderWay = d.kernel.callsUnderWay ++ new := by
  have h := hr'.called_eq htick
  rw [hcalled, hcalls, hr.called_eq htick, List.append_assoc, List.append_assoc] at h
  exact (List.append_cancel_left h).symm

/-- The terminal has not drawn. -/
theorem drawTerminal_same (s : LayerSystem config) (t : Option OpenTerminal) :
    s.drawTerminal font t t = some s := by
  cases t with
  | none => rfl
  | some t =>
      unfold LayerSystem.drawTerminal
      simp

/-- Nothing happens that concerns the layers. -/
theorem InStep.nothing (h : d.InStep font) (htick : tick < kTimer05Sec)
    (hr : d.kernel.Reachable m tick) (hr' : k.Reachable m tick)
    (hterminal : k.terminal = d.kernel.terminal) (hcalled : k.called = d.kernel.called)
    (hcalls : k.layerCalls = d.kernel.layerCalls) : InStep font ⟨k, d.layers⟩ := by
  have hsame : k.callsUnderWay = d.kernel.callsUnderWay := by
    simpa using callsUnderWay_of_effect htick hr hr' (hcalled.trans (List.append_nil _).symm)
      (hcalls.trans (List.append_nil _).symm)
  refine ⟨?_, ?_⟩
  · show d.layers.Deferred font (k.callsUnderWay.filterMap _)
    rw [hsame]
    exact h.deferred
  · show ∃ t, k.terminal = some t ∧ _
    rw [hterminal]
    exact h.terminal

/-- The terminal draws and asks for a redraw. -/
theorem InStep.answer (h : d.InStep font) (htick : tick < kTimer05Sec)
    (hr : d.kernel.Reachable m tick) (hr' : k.Reachable m tick) {t : OpenTerminal} {msg : Message}
    {t' : Terminal} {area : Rectangle} (hterminal : d.kernel.terminal = some t)
    (hcovered : ∀ layer window, d.layers.manager.deref (d.layers.manager.findLayer t.layerId) =
      some layer → layer.window = some window → ∀ key ∈ msg.key?, t.terminal.Covered window key)
    (hhandle : Kernel.terminalHandle m t.terminal msg = some (t', some area))
    (hterminal' : k.terminal = some { t with terminal := t' })
    (hcalled : k.called = d.kernel.called ++ [.drawArea t.layerId area])
    (hcalls : k.layerCalls = d.kernel.layerCalls) :
    ∃ layers, d.layers.drawTerminal font d.kernel.terminal k.terminal = some layers ∧
      InStep font ⟨k, layers⟩ := by
  obtain ⟨t₁, ht₁, hclient⟩ := h.terminal
  cases hterminal.symm.trans ht₁
  obtain ⟨layer, window, hderef, hwindow, hsize⟩ := hclient.window
  have hw : IsTerminalWindow window := by
    refine ⟨?_, h.deferred.solid hclient.displayed hclient.notMouse hderef hwindow⟩
    unfold Window.bounds terminalBounds
    rw [hsize]
  obtain ⟨calls, w', hanswer⟩ := terminalHandle_answer (hr.damageInv htick hterminal) hw
    (hcovered layer window hderef hwindow) hhandle
  obtain ⟨lm, hu, hframed, hdeferred⟩ := h.deferred.request hclient hderef hwindow
    (f := fun window => DrawCall.performAll font window calls) hanswer.performed hanswer.frame
    hanswer.proper hanswer.covers
  have hrequests : k.callsUnderWay = d.kernel.callsUnderWay ++ [.drawArea t.layerId area] := by
    simpa using callsUnderWay_of_effect htick hr hr' hcalled (hcalls.trans (List.append_nil _).symm)
  have hdrop : t'.drawn.drop t.terminal.drawn.length = calls := by
    rw [hanswer.drawn, List.drop_left]
  refine ⟨{ d.layers with manager := lm }, ?_, ⟨?_, { t with terminal := t' }, hterminal',
    hclient.framed hframed rfl⟩⟩
  · rw [hterminal, hterminal']
    unfold LayerSystem.drawTerminal
    simp only [hdrop, List.isEmpty_eq_false_iff.mpr hanswer.nonempty, Bool.false_eq_true, if_false]
    rw [hu]
    rfl
  · show LayerSystem.Deferred font (k.callsUnderWay.filterMap _) _
    rw [hrequests, List.filterMap_append]
    exact hdeferred

/-- The main task carries out a redraw. -/
theorem InStep.carryOut (h : d.InStep font) (htick : tick < kTimer05Sec)
    (hr : d.kernel.Reachable m tick) (hr' : k.Reachable m tick) {call : LayerCall}
    (hinHand : d.kernel.main.callInHand = [call]) (hterminal : k.terminal = d.kernel.terminal)
    (hcalled : k.called = d.kernel.called) (hcalls : k.layerCalls = d.kernel.layerCalls ++ [call])
    (junk : Rectangle) :
    ∃ layers, d.layers.step font (call.layerOp junk) = some layers ∧ InStep font ⟨k, layers⟩ := by
  have hunderWay : [call] ++ k.callsUnderWay = d.kernel.callsUnderWay := by
    simpa using callsUnderWay_of_effect htick hr hr' (hcalled.trans (List.append_nil _).symm) hcalls
  obtain ⟨id, area, rfl⟩ : ∃ id area, call = .drawArea id area :=
    hr.callsUnderWay_eq htick (hunderWay ▸ List.mem_cons_self)
  have hdeferred := h.deferred
  unfold Kernel.requests at hdeferred
  rw [← hunderWay] at hdeferred
  obtain ⟨lm, hdraw, hframed, hdeferred'⟩ := LayerSystem.Deferred.carryOut hdeferred junk
  obtain ⟨t, ht, hclient⟩ := h.terminal
  refine ⟨{ d.layers with manager := lm }, ?_, hdeferred', t, hterminal.trans ht,
    hclient.framed hframed rfl⟩
  show d.layers.withManager (d.layers.manager.drawLayerArea id area junk) = _
  rw [hdraw]
  rfl

/-- The state is reached by the kernel, and the screen is in step. -/
structure Sound (m : Machine) (tick : Nat) (font : Font) (d : Display Q config) : Prop where
  reachable : d.kernel.Reachable m tick
  inStep : d.InStep font

/-- **The step lemma**: a step that the kernel can make can be made with the layers, and leaves only
pixels stale that requests under way are about. -/
theorem Sound.kernelStep (h : d.Sound m tick font) (htick : tick < kTimer05Sec)
    (hok : (DisplayOp.kernel op junk).Permitted d) (hstep : d.kernel.step m op = some k) :
    ∃ layers, d.step m font (.kernel op junk) = some ⟨k, layers⟩ ∧
      Sound m tick font ⟨k, layers⟩ := by
  obtain ⟨hr, hinStep⟩ := h
  have hr' : k.Reachable m tick := hr.step hok.1 hstep
  obtain ⟨t, ht, hclient⟩ := hinStep.terminal
  have hroles := hr.roles htick
  have heffect : LayerEffect m d.kernel k op :=
    .of_step (by rw [ht]; rfl) (kernelStep_of hroles.1 hroles.2 hok.1 hstep)
  have hsimple : ∀ layers, d.layers.drawTerminal font d.kernel.terminal k.terminal = some layers →
      k.layerCalls = d.kernel.layerCalls → InStep font ⟨k, layers⟩ →
        ∃ layers, d.step m font (.kernel op junk) = some ⟨k, layers⟩ ∧
          Sound m tick font ⟨k, layers⟩ := by
    intro layers hdraw hcalls hinStep'
    refine ⟨layers, ?_, hr', hinStep'⟩
    simp only [step, hstep, Option.bind_some, hdraw, hcalls, List.drop_length, List.map_nil, run_nil,
      Option.map_some]
  cases heffect with
  | answer t msg t' area hop hterminal hnext hhandle hterminal' hcalled hcalls =>
      have hcovered := hok.2 hop
      obtain ⟨layers, hdraw, hinStep'⟩ := hinStep.answer htick hr hr' hterminal
        (fun layer window hderef hwindow key hkey =>
          hcovered t hterminal msg hnext key hkey layer hderef window hwindow)
        hhandle hterminal' hcalled hcalls
      exact hsimple layers hdraw hcalls hinStep'
  | carryOut call hinHand hterminal hcalled hcalls =>
      obtain ⟨layers, hdraw, hinStep'⟩ :=
        hinStep.carryOut htick hr hr' hinHand hterminal hcalled hcalls junk
      refine ⟨layers, ?_, hr', hinStep'⟩
      have hrun : run (LayerSystem.step font) d.layers [call.layerOp junk] = some layers := by
        rw [run_cons, hdraw]
        rfl
      simp only [step, hstep, Option.bind_some, hterminal, drawTerminal_same, hcalls, List.drop_left,
        List.map_cons, List.map_nil, hrun, Option.map_some]
  | nothing hterminal hcalled hcalls =>
      refine hsimple d.layers ?_ hcalls (hinStep.nothing htick hr hr' hterminal hcalled hcalls)
      rw [hterminal]
      exact drawTerminal_same d.layers _

/-- A step of the main task in which it redraws what it has changed. -/
theorem Sound.redraw (h : d.Sound m tick font) {op : RedrawOp}
    (hok : (DisplayOp.redraw op).Permitted d) :
    ∃ layers, d.step m font (.redraw op) = some ⟨d.kernel, layers⟩ ∧
      Sound m tick font ⟨d.kernel, layers⟩ := by
  obtain ⟨layers, hstep, hclients, hdeferred⟩ := h.inStep.deferred.redraw hok.2
  obtain ⟨t, ht, hclient⟩ := h.inStep.terminal
  refine ⟨layers, ?_, h.reachable, hdeferred, t, ht, hclients _ _ hclient⟩
  show (op.step font d.layers).map _ = _
  rw [hstep]
  rfl

theorem sound_keeps (htick : tick < kTimer05Sec) :
    Keeps (Display.step m font) (fun (d : Display Q config) op => op.Permitted d)
      (Sound m tick font) := by
  intro d op d' h hok hstep
  cases op with
  | kernel op junk =>
      obtain ⟨k, hk, -⟩ := Option.bind_eq_some_iff.mp hstep
      obtain ⟨layers, hstep', h'⟩ := h.kernelStep htick hok hk
      cases hstep.symm.trans hstep'
      exact h'
  | redraw op =>
      obtain ⟨layers, hstep', h'⟩ := h.redraw hok
      cases hstep.symm.trans hstep'
      exact h'

/-- No redraw is under way, the screen is up to date, and the terminal has a layer. -/
structure Started (m : Machine) (tick : Nat) (font : Font) (d : Display Q config) : Prop where
  reachable : d.kernel.Reachable m tick
  idle : d.kernel.requests = []
  shown : d.layers.Shown font
  terminal : ∃ t, d.kernel.terminal = some t ∧ d.layers.Client t.layerId terminalSize

theorem Started.sound (h : d.Started m tick font) : d.Sound m tick font := by
  refine ⟨h.reachable, ?_, h.terminal⟩
  rw [h.idle]
  exact LayerSystem.deferred_nil.mpr h.shown

/-- The states of the running system. -/
abbrev Reachable (m : Machine) (font : Font) (d₀ d : Display Q config) : Prop :=
  Transition.Reachable (Display.step m font) (fun d op => op.Permitted d) d₀ d

/-- The screen of two pixels with the layers that the running kernel knows; those of the console, the
main window and the text box have no windows. -/
def typedLayerOps : List LayerOp :=
  [.newLayer, .setWindow 1 (.new 2 1 .kPixelRGBResv8BitPerColor), .upDown 1 0] ++
    List.replicate 4 .newLayer ++
  [.setWindow 5 ((Window.new 1 1 .kPixelRGBResv8BitPerColor).setTransparentColor (some ⟨0, 0, 1⟩)),
    .newLayer, .setWindow 6 (.new 496 276 .kPixelRGBResv8BitPerColor), .upDown 6 1,
    .upDown 5 0x7fffffff, .setMouseLayer 5]

/-- The layers at that moment. -/
def typedLayers? : Option (LayerSystem LayerSystem.tinyConfig) :=
  runPermitted (LayerSystem.step LayerSystem.noFont) (fun s op => op.Permitted LayerSystem.noFont s)
    { manager := { screen := .zeros _ } } typedLayerOps

theorem typedLayers?_isSome : typedLayers?.isSome = true := by decide

/-- The layers at that moment. -/
def typedLayers : LayerSystem LayerSystem.tinyConfig := typedLayers?.get typedLayers?_isSome

theorem typedLayers_stackInv : StackInv LayerSystem.noFont typedLayers.manager := by
  have hr : typedLayers.Reachable LayerSystem.noFont (.zeros _) :=
    Transition.Reachable.of_runPermitted .init (Option.some_get typedLayers?_isSome).symm
  exact LayerSystem.Reachable.inOrder hr

theorem typedLayers_desktop : typedLayers.Desktop := by
  have hformat : ∀ layer ∈ typedLayers.manager.layers, ∀ window ∈ layer.window,
      LayerSystem.tinyConfig.pixelFormat = window.shadowFormat := by decide
  have hsolid : ∀ ptr ∈ typedLayers.manager.layerStack.dropLast,
      ∀ layer ∈ typedLayers.manager.deref ptr, ∀ window ∈ layer.window,
        window.transparentColor = none := by decide
  have hsome : ((typedLayers.manager.deref (some 0)).bind Layer.window).isSome = true := by decide
  have hfirst : ∀ layer ∈ typedLayers.manager.deref (some 0), layer.pos = ⟨0, 0⟩ ∧
      ∀ window ∈ layer.window, window.size = LayerSystem.tinyConfig.frameBufferSize ∧
        window.transparentColor = none := by decide
  refine ⟨⟨hformat, hsolid, ?_⟩, ⟨by decide, by decide⟩, Or.inl (by decide)⟩
  obtain ⟨window, hbind⟩ := Option.isSome_iff_exists.mp hsome
  obtain ⟨layer, hlayer, hwindow⟩ := Option.bind_eq_some_iff.mp hbind
  obtain ⟨hpos, hall⟩ := hfirst layer hlayer
  obtain ⟨hsize, hopen⟩ := hall window hwindow
  exact ⟨some 0, layer, window, by decide, hlayer, hwindow, hpos, hsize, hopen⟩

theorem typedLayers_client : typedLayers.Client 6 terminalSize := by
  have hsome : ((typedLayers.manager.deref (typedLayers.manager.findLayer 6)).bind
      Layer.window).isSome = true := by decide
  have hall : ∀ layer ∈ typedLayers.manager.deref (typedLayers.manager.findLayer 6),
      ∀ window ∈ layer.window, window.size = terminalSize := by decide
  obtain ⟨window, hbind⟩ := Option.isSome_iff_exists.mp hsome
  obtain ⟨layer, hlayer, hwindow⟩ := Option.bind_eq_some_iff.mp hbind
  exact ⟨by decide, by decide, layer, window, hlayer, hwindow, hall layer hlayer window hwindow⟩

/-- **The screen catches up.** In every run of the kernel and the layers, every step that the kernel
can make is defined on the layers, and every pixel of the screen that no redraw under way is about is
the visible one. -/
theorem screen_catches_up {d₀ : Display Q config} (htick : tick < kTimer05Sec)
    (h₀ : d₀.Started m tick font) (hr : Reachable m font d₀ d) :
    (∀ p, config.outline.Contains p → (∀ r ∈ d.kernel.requests, ¬d.layers.manager.Awaits r p) →
      d.layers.manager.visible p = some (d.layers.manager.screen.pixel p)) ∧
    (∀ op junk, (DisplayOp.kernel op junk).Permitted d → (d.kernel.step m op).isSome = true →
      (d.step m font (.kernel op junk)).isSome = true) ∧
    ∀ op, (DisplayOp.redraw op).Permitted d → (d.step m font (.redraw op)).isSome = true := by
  have h : d.Sound m tick font := hr.invariant_of_keeps h₀.sound (sound_keeps htick)
  refine ⟨fun p hp hnone => ?_, fun op junk hok hsome => ?_, fun op hok => ?_⟩
  · refine (h.inStep.deferred.ready.upToDate p hp ?_).2
    rintro ⟨r, hr, hawaits⟩
    exact hnone r hr hawaits
  · obtain ⟨k, hk⟩ := Option.isSome_iff_exists.mp hsome
    obtain ⟨layers, hstep, -⟩ := h.kernelStep htick hok hk
    rw [hstep]
    rfl
  · obtain ⟨layers, hstep, -⟩ := h.redraw hok
    rw [hstep]
    rfl

/-- After a key has been typed, and a `Draw` of the whole screen. -/
theorem screen_catches_up_typed :
    ∃ layers : LayerSystem LayerSystem.tinyConfig,
      Started emptyMachine 0 LayerSystem.noFont ⟨typed, layers⟩ ∧
        ∀ p, LayerSystem.tinyConfig.outline.Contains p →
          layers.manager.visible p = some (layers.manager.screen.pixel p) := by
  obtain ⟨lm, -, hframed, hdeferred⟩ :=
    LayerSystem.deferred_of_draw typedLayers_stackInv typedLayers_desktop
  have hclient : LayerSystem.Client { typedLayers with manager := lm } 6 terminalSize :=
    typedLayers_client.framed hframed rfl
  have hreachable := typed_reachable
  have hterminal : typed.terminal.map OpenTerminal.layerId = some 6 := by decide +kernel
  have hcalls : typed.callsUnderWay = [] := by decide +kernel
  have hidle : typed.requests = [] := by
    unfold Kernel.requests
    rw [hcalls]
    rfl
  generalize typed = k at hreachable hterminal hidle ⊢
  generalize ({ typedLayers with manager := lm } : LayerSystem _) = layers at hdeferred hclient
  obtain ⟨t, ht, hid⟩ := Option.map_eq_some_iff.mp hterminal
  have hstarted : Started emptyMachine 0 LayerSystem.noFont ⟨k, layers⟩ :=
    ⟨hreachable, hidle, LayerSystem.deferred_nil.mp hdeferred, t, ht, hid ▸ hclient⟩
  refine ⟨layers, hstarted, fun p hp => ?_⟩
  refine (screen_catches_up (by decide) hstarted .init).1 p hp fun r hr => ?_
  have hnone : r ∈ k.requests := hr
  rw [hidle] at hnone
  cases hnone

end Display

end UhyokOS
