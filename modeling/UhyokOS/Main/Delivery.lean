import UhyokOS.Main.Keyboards

/-!
# From keys to the terminal

What becomes of a key, over every run of the kernel. Each list below is split between what has passed
a point and what is still before it, so that nothing is lost, doubled or overtaken.

* `Delivery`: the keys that the observer is called for are sent to the main task, received there, and
  dealt with; those for the task of the terminal are sent on.
* `Terminal.run`, `Output`: the terminal is what its messages make of it, and each redraw that it
  asks for is a message to the main task.
* `Redraws`: the main task carries out the requests to redraw and reports each one finished.
-/

set_option linter.unusedSectionVars false

namespace UhyokOS

open Transition

/-! ## Messages of one kind -/

/-- The key that a message is about. -/
def Message.key? (msg : Message) : Option Key :=
  match msg.type, msg.arg with
  | .kKeyPush, .keyboard modifier keycode ascii => some { modifier, keycode, ascii }
  | _, _ => none

/-- The call that a message asks for. -/
def Message.layerCall? (msg : Message) : Option LayerCall :=
  match msg.type, msg.arg with
  | .kLayer, .layer op layerId x y w h => some (processLayerMessage op layerId x y w h)
  | _, _ => none

/-- A message that reports a call finished. -/
def Message.finish? (msg : Message) : Option Unit :=
  if msg.type = .kLayerFinish then some () else none

/-- The message about a key is about this key: its three fields are carried over. -/
@[simp] theorem Key.message_key? (key : Key) : key.message.key? = some key := rfl

/-- A timer's message is about no key, so that what a tick sends does not touch the keys. -/
@[simp] theorem Timer.message_key? (t : Timer) : t.message.key? = none := rfl

/-- A timer's message asks for no call of the layer manager. -/
@[simp] theorem Timer.message_layerCall? (t : Timer) : t.message.layerCall? = none := rfl

/-- A timer's message does not report a call finished. -/
@[simp] theorem Timer.message_finish? (t : Timer) : t.message.finish? = none := rfl

/-- Timers are about nothing else. -/
theorem filterMap_timers {α : Type} {f : Message → Option α} (hf : ∀ t : Timer, f t.message = none)
    (ts : List Timer) : (ts.map Timer.message).filterMap f = [] := by
  rw [List.filterMap_map]
  exact List.filterMap_eq_nil_iff.mpr fun t _ => hf t

/-- What is handed out is split off. -/
theorem Hands.filterMap_sent {α : Type} {s s' : Mail} {msgs : TaskPtr → List Message}
    (h : Hands s msgs s') (f : Message → Option α) (p : TaskPtr) :
    (s'.sent p).filterMap f = (s.sent p).filterMap f ++ (msgs p).filterMap f := by
  rw [h.sent, List.filterMap_append]

/-- What is sent to one task does not appear among the messages of another, whatever part of them is
looked at. -/
theorem Hands.filterMap_sent_handTo_ne {α : Type} {s s' : Mail} {task p : TaskPtr}
    {msgs : List Message} {f : Message → Option α} (h : Hands s (handTo task msgs) s')
    (hp : p ≠ task) : (s'.sent p).filterMap f = (s.sent p).filterMap f := by
  rw [h.filterMap_sent, handTo_ne hp]
  exact List.append_nil _

/-! ## Keys -/

/-- The task that a key is for. -/
def Route.task? : Route → Option UInt64
  | .task id => some id
  | .textWindow => none
  | .nobody => none

namespace MainStage

/-- The keys that the observer is still to be called for. -/
def toNotify : MainStage → List Key
  | .notify _ pushes _ => pushes.map observedKey
  | _ => []

/-- A key that has been received and not dealt with yet. -/
def keyInHand : MainStage → List Key
  | .handle msg => msg.key?.toList
  | .findTask _ key => [key]
  | _ => []

/-- A key that is still to be sent on. -/
def keyToSend : MainStage → List Key
  | .send _ msg => msg.key?.toList
  | .blink msg => msg.key?.toList
  | _ => []

end MainStage

variable {Q : Type}

/-- The keys for the task of the terminal. -/
def Kernel.forTerminal (k : Kernel Q) : List Key :=
  (k.routed.filter fun x => x.2.task? = some 3).map Prod.fst

variable {k k' : Kernel Q}

/-- A key that the main task has just dealt with is one for the terminal if it was routed to the
terminal's task, whose id is 3. -/
theorem Kernel.forTerminal_append {key : Key} {route : Route}
    (h : k'.routed = k.routed ++ [(key, route)]) :
    k'.forTerminal = k.forTerminal ++ if route.task? = some 3 then [key] else [] := by
  unfold Kernel.forTerminal
  rw [h, List.filter_append, List.map_append, List.filter_singleton]
  split_ifs with hroute <;> simp [hroute]

/-- No key is lost, doubled or overtaken on its way. -/
structure Delivery (k : Kernel Q) : Prop where
  observed : k.pressed.map Prod.snd = (k.mail.sent 0).filterMap Message.key? ++ k.main.toNotify
  taken : (k.mail.received 0).filterMap Message.key? =
    k.routed.map Prod.fst ++ k.main.keyInHand
  forwarded : k.forTerminal = (k.mail.sent 2).filterMap Message.key? ++ k.main.keyToSend

namespace Delivery

/-- A step that no key is concerned in. -/
theorem stay (h : Delivery k) (hpressed : k'.pressed = k.pressed) (hrouted : k'.routed = k.routed)
    (hsent : ∀ p, (k'.mail.sent p).filterMap Message.key? = (k.mail.sent p).filterMap Message.key?)
    (hreceived : (k'.mail.received 0).filterMap Message.key? =
      (k.mail.received 0).filterMap Message.key?)
    (htoNotify : k'.main.toNotify = k.main.toNotify)
    (hinHand : k'.main.keyInHand = k.main.keyInHand)
    (htoSend : k'.main.keyToSend = k.main.keyToSend) : Delivery k' where
  observed := by rw [hpressed, hsent, htoNotify, h.observed]
  taken := by rw [hreceived, hrouted, hinHand, h.taken]
  forwarded := by
    unfold Kernel.forTerminal
    rw [hrouted, hsent, htoSend]
    exact h.forwarded

/-- Messages are handed out that are not about keys. -/
theorem hand (h : Delivery k) {msgs : TaskPtr → List Message} (hhands : Hands k.mail msgs k'.mail)
    (hmsgs : ∀ p, (msgs p).filterMap Message.key? = []) (hpressed : k'.pressed = k.pressed)
    (hrouted : k'.routed = k.routed) (htoNotify : k'.main.toNotify = k.main.toNotify)
    (hinHand : k'.main.keyInHand = k.main.keyInHand)
    (htoSend : k'.main.keyToSend = k.main.keyToSend) : Delivery k' := by
  refine h.stay hpressed hrouted (fun p => ?_) ?_ htoNotify hinHand htoSend
  · rw [hhands.filterMap_sent, hmsgs, List.append_nil]
  · rw [hhands.received]

/-- The main task has dealt with a key. -/
theorem dealt (h : Delivery k) {key : Key} {route : Route} (hpressed : k'.pressed = k.pressed)
    (hmail : k'.mail = k.mail) (hrouted : k'.routed = k.routed ++ [(key, route)])
    (hinHand : k.main.keyInHand = [key]) (hinHand' : k'.main.keyInHand = [])
    (htoNotify : k'.main.toNotify = k.main.toNotify) (htoSend : k.main.keyToSend = [])
    (htoSend' : k'.main.keyToSend = if route.task? = some 3 then [key] else []) : Delivery k' where
  observed := by rw [hpressed, hmail, htoNotify, h.observed]
  taken := by rw [hmail, h.taken, hrouted, hinHand, hinHand', List.map_append, List.append_nil]; rfl
  forwarded := by
    rw [Kernel.forTerminal_append hrouted, h.forwarded, hmail, htoSend, htoSend', List.append_nil]

variable [PriorityQueue Q Timer]

/-- A section of the main task, by cases on the point that it has reached. A key moves on in four of
them: it is announced (`notify`), taken from the mailbox, routed, and sent on to the terminal. -/
theorem mainStep (h : Delivery k) (hexec : k.mail.sys.cpu.executing = 0) (hstep : MainStep k k') :
    Delivery k' := by
  cases hstep with
  | newTask hmain mail hinv hmanager hcpu hsent hreceived =>
      refine h.stay rfl rfl (fun p => ?_) ?_ (by rw [hmain]; rfl) (by rw [hmain]; rfl)
        (by rw [hmain]; rfl)
      · show (mail.sent p).filterMap _ = _
        rw [hsent]
      · show (mail.received 0).filterMap _ = _
        rw [hreceived]
  | wakeTask hmain mail hcpu hhands hwakes =>
      exact h.hand hhands (fun _ => rfl) rfl rfl (by rw [hmain]; rfl) (by rw [hmain]; rfl)
        (by rw [hmain]; rfl)
  | take hmain msg msgs mail hpending htakes =>
      have hself := htakes.received_self
      rw [hexec] at hself
      refine ⟨?_, ?_, ?_⟩
      · show _ = (mail.sent 0).filterMap _ ++ _
        rw [htakes.sent, h.observed, hmain]
        rfl
      · have htaken := h.taken
        rw [hmain] at htaken
        show (mail.received 0).filterMap _ = k.routed.map Prod.fst ++ msg.key?.toList
        rw [hself, List.filterMap_append, htaken, List.filterMap_cons, List.filterMap_nil]
        cases msg.key? <;> simp [MainStage.keyInHand]
      · show k.forTerminal = (mail.sent 2).filterMap _ ++ _
        rw [htakes.sent, h.forwarded, hmain]
        rfl
  | rest hmain mail hpending hrests =>
      refine h.stay rfl rfl (fun p => ?_) ?_ (by rw [hmain]; rfl) (by rw [hmain]; rfl)
        (by rw [hmain]; rfl)
      · show (mail.sent p).filterMap _ = _
        rw [hrests.sent]
      · show (mail.received 0).filterMap _ = _
        rw [hrests.received]
  | textKey srcTask key hmain hactive =>
      exact h.dealt rfl rfl rfl (by rw [hmain]; rfl) rfl (by rw [hmain]; rfl) (by rw [hmain]; rfl) rfl
  | found act key hmain hfound =>
      exact h.dealt rfl rfl rfl (by rw [hmain]; rfl) rfl (by rw [hmain]; rfl) (by rw [hmain]; rfl) rfl
  | notFound act key hmain hnotFound =>
      exact h.dealt rfl rfl rfl (by rw [hmain]; rfl) rfl (by rw [hmain]; rfl) (by rw [hmain]; rfl) rfl
  | transfer hmain i len ring hring keyboard hkeyboard pushes ret driver hdriver =>
      have hobserved := h.observed
      rw [hmain] at hobserved
      refine ⟨?_, ?_, ?_⟩
      · show (k.pressed ++ _).map _ = (k.mail.sent 0).filterMap _ ++ pushes.map observedKey
        rw [List.map_append, hobserved, List.map_map]
        simp [MainStage.toNotify]
      · rw [h.taken, hmain]
        rfl
      · show k.forTerminal = (k.mail.sent 2).filterMap _ ++ []
        rw [h.forwarded, hmain]
        rfl
  | notify i push pushes driver hmain mail hcpu hhands =>
      have hobserved := h.observed
      rw [hmain] at hobserved
      refine ⟨?_, ?_, ?_⟩
      · show k.pressed.map _ = (mail.sent 0).filterMap _ ++ pushes.map observedKey
        rw [hhands.filterMap_sent, hobserved]
        simp [MainStage.toNotify]
      · show (mail.received 0).filterMap _ = _
        rw [hhands.received, h.taken, hmain]
        rfl
      · show k.forTerminal = (mail.sent 2).filterMap _ ++ []
        rw [hhands.filterMap_sent_handTo_ne (p := 2) (by decide), h.forwarded, hmain]
        rfl
  | send msg hmain mail hcpu hhands hwakes =>
      have hforwarded := h.forwarded
      rw [hmain] at hforwarded
      refine ⟨?_, ?_, ?_⟩
      · show k.pressed.map _ = (mail.sent 0).filterMap _ ++ []
        rw [hhands.filterMap_sent_handTo_ne (p := 0) (by decide), h.observed, hmain]
        rfl
      · show (mail.received 0).filterMap _ = _
        rw [hhands.received, h.taken, hmain]
        rfl
      · show k.forTerminal = (mail.sent 2).filterMap _ ++ []
        rw [hhands.filterMap_sent, hforwarded, handTo_self, List.filterMap_cons, List.filterMap_nil]
        cases hkey : msg.key? <;> simp [MainStage.keyToSend, hkey]
  | _ =>
      exact h.stay rfl rfl (fun _ => rfl) rfl (by rw [‹k.main = _›]; rfl)
        (by rw [‹k.main = _›]; rfl) (by rw [‹k.main = _›]; rfl)

/-- A section of the terminal's task sends messages about redraws only, and the keys that it takes
were sent to it before; no list of keys changes but `received`. -/
theorem terminalStep {m : Machine} (h : Delivery k) (hexec : k.mail.sys.cpu.executing = 2)
    (hstep : TerminalStep m k k') : Delivery k' := by
  have hmain : (0 : TaskPtr) ≠ k.mail.sys.cpu.executing := by
    rw [hexec]
    exact nofun
  cases hstep with
  | start hterminal => exact h.stay rfl rfl (fun _ => rfl) rfl rfl rfl rfl
  | rest t hterminal mail hpending hrests =>
      refine h.stay rfl rfl (fun p => ?_) ?_ rfl rfl rfl
      · show (mail.sent p).filterMap _ = _
        rw [hrests.sent]
      · show (mail.received 0).filterMap _ = _
        rw [hrests.received]
  | ignore t hterminal msg msgs hpending t' hhandle mail htakes =>
      refine h.stay rfl rfl (fun p => ?_) ?_ rfl rfl rfl
      · show (mail.sent p).filterMap _ = _
        rw [htakes.sent]
      · show (mail.received 0).filterMap _ = _
        rw [htakes.received_of_ne hmain]
  | answer t hterminal msg msgs hpending t' area hhandle taken mail htakes hcpu hhands hwakes =>
      refine h.stay rfl rfl (fun p => ?_) ?_ rfl rfl rfl
      · show (mail.sent p).filterMap _ = _
        rw [hhands.filterMap_sent, htakes.sent]
        by_cases hp : p = 0
        · rw [hp, handTo_self]
          exact List.append_nil _
        · rw [handTo_ne hp]
          exact List.append_nil _
      · show (mail.received 0).filterMap _ = _
        rw [hhands.received, htakes.received_of_ne hmain]

/-- **One step** keeps the three splits. A report calls for nothing yet, and the messages that the
interrupts send are not about keys. -/
theorem step {m : Machine} {op : KernelOp} (h : Delivery k) (hstep : KernelStep m k op k') :
    Delivery k' := by
  cases hstep with
  | interruptXHCI hirq mail hcpu hhands hwakes =>
      refine h.hand hhands (fun p => ?_) rfl rfl rfl rfl rfl
      unfold handTo
      split <;> rfl
  | interruptTimer hrange k' reported result htimer =>
      rw [htimer.kernel]
      refine h.hand htimer.hands (fun p => ?_) rfl rfl rfl rfl rfl
      unfold handTo
      split
      · exact filterMap_timers (fun _ => rfl) reported
      · rfl
  | main hexec k' hmain => exact h.mainStep hexec hmain
  | terminal hexec hlate k' hterminal => exact h.terminalStep hexec hterminal
  | _ => exact h.stay rfl rfl (fun _ => rfl) rfl rfl rfl rfl

/-- At the start all lists are empty. -/
theorem init (tick : Nat) : Delivery (.init tick : Kernel Q) := ⟨rfl, rfl, rfl⟩

end Delivery

/-! ## The terminal -/

/-- What a terminal makes of messages, and what it asks to have redrawn. -/
def Terminal.run (m : Machine) : Terminal → List Message → Option (Terminal × List Rectangle)
  | t, [] => some (t, [])
  | t, msg :: msgs => (Kernel.terminalHandle m t msg).bind fun (t', area) =>
      (run m t' msgs).map fun (t'', areas) => (t'', area.toList ++ areas)

/-- **The rule of the last message**: a run over some messages goes on with one more. The induction
is on the messages before it, since `run` works from the front. -/
theorem Terminal.run_concat {m : Machine} {t t' t'' : Terminal} {msgs : List Message}
    {areas : List Rectangle} {msg : Message} {area : Option Rectangle}
    (hrun : t.run m msgs = some (t', areas))
    (hlast : Kernel.terminalHandle m t' msg = some (t'', area)) :
    t.run m (msgs ++ [msg]) = some (t'', areas ++ area.toList) := by
  induction msgs generalizing t areas with
  | nil =>
      cases hrun
      show (Kernel.terminalHandle m t' msg).bind _ = _
      rw [hlast]
      simp [run]
  | cons first msgs ih =>
      obtain ⟨⟨t₁, area₁⟩, hfirst, hmap⟩ := Option.bind_eq_some_iff.mp hrun
      obtain ⟨⟨t₂, areas₂⟩, hrest, heq⟩ := Option.map_eq_some_iff.mp hmap
      cases heq
      show (Kernel.terminalHandle m t first).bind _ = _
      rw [hfirst, Option.bind_some]
      show (run m t₁ (msgs ++ [msg])).map _ = _
      rw [ih hrest, Option.map_some, List.append_assoc]

/-- The terminal is what its messages have made of it, and has asked for what they called for. -/
structure Output (m : Machine) (k : Kernel Q) : Prop where
  closed : k.terminal = none → k.mail.received 2 = [] ∧
    (k.mail.sent 0).filterMap Message.layerCall? = []
  opened : ∀ t, k.terminal = some t → ∃ areas,
    Terminal.init.run m (k.mail.received 2) = some (t.terminal, areas) ∧
      (k.mail.sent 0).filterMap Message.layerCall? = areas.map (LayerCall.drawArea t.layerId)

namespace Output

variable {m : Machine}

/-- A step in which the terminal neither takes a message nor asks for a redraw. -/
theorem stay (h : Output m k) (hterminal : k'.terminal = k.terminal)
    (hreceived : k'.mail.received 2 = k.mail.received 2)
    (hsent : (k'.mail.sent 0).filterMap Message.layerCall? =
      (k.mail.sent 0).filterMap Message.layerCall?) : Output m k' where
  closed hnone := by
    rw [hreceived, hsent]
    exact h.closed (hterminal ▸ hnone)
  opened t ht := by
    rw [hreceived, hsent]
    exact h.opened t (hterminal ▸ ht)

/-- The terminal deals with a message. -/
theorem opened_take (h : Output m k) {t : OpenTerminal} (hterminal : k.terminal = some t)
    {msg : Message} {t' : Terminal} {area : Option Rectangle}
    (hhandle : Kernel.terminalHandle m t.terminal msg = some (t', area))
    (hterminal' : k'.terminal = some { t with terminal := t' })
    (hreceived : k'.mail.received 2 = k.mail.received 2 ++ [msg])
    (hsent : (k'.mail.sent 0).filterMap Message.layerCall? =
      (k.mail.sent 0).filterMap Message.layerCall? ++
        area.toList.map (LayerCall.drawArea t.layerId)) : Output m k' where
  closed hnone := absurd (hterminal'.symm.trans hnone) nofun
  opened t₁ ht₁ := by
    cases hterminal'.symm.trans ht₁
    obtain ⟨areas, hrun, hareas⟩ := h.opened t hterminal
    rw [hreceived, hsent]
    refine ⟨areas ++ area.toList, Terminal.run_concat hrun hhandle, ?_⟩
    rw [hareas, List.map_append]

variable [PriorityQueue Q Timer]

/-- A section of the main task sends no request to redraw to itself: what it sends to its own
mailbox is about keys. -/
theorem mainStep (h : Output m k) (hexec : k.mail.sys.cpu.executing = 0) (hstep : MainStep k k') :
    Output m k' := by
  have hother : (2 : TaskPtr) ≠ k.mail.sys.cpu.executing := by
    rw [hexec]
    exact nofun
  cases hstep with
  | newTask hmain mail hinv hmanager hcpu hsent hreceived =>
      refine h.stay rfl (congrFun hreceived 2) ?_
      show (mail.sent 0).filterMap _ = _
      rw [hsent]
  | wakeTask hmain mail hcpu hhands hwakes =>
      refine h.stay rfl (congrFun hhands.received 2) ?_
      show (mail.sent 0).filterMap _ = _
      rw [hhands.filterMap_sent]
      exact List.append_nil _
  | take hmain msg msgs mail hpending htakes =>
      refine h.stay rfl (htakes.received_of_ne hother) ?_
      show (mail.sent 0).filterMap _ = _
      rw [htakes.sent]
  | rest hmain mail hpending hrests =>
      refine h.stay rfl (congrFun hrests.received 2) ?_
      show (mail.sent 0).filterMap _ = _
      rw [hrests.sent]
  | notify i push pushes driver hmain mail hcpu hhands =>
      refine h.stay rfl (congrFun hhands.received 2) ?_
      show (mail.sent 0).filterMap _ = _
      rw [hhands.filterMap_sent, handTo_self]
      exact List.append_nil _
  | send msg hmain mail hcpu hhands hwakes =>
      exact h.stay rfl (congrFun hhands.received 2)
        (hhands.filterMap_sent_handTo_ne (p := 0) (by decide))
  | _ => exact h.stay rfl rfl rfl

/-- A section of the terminal's task. If it takes a message, the terminal behind it is the next one
of the run, and the redraw that it asks for is the next one of the list. -/
theorem terminalStep (h : Output m k) (hexec : k.mail.sys.cpu.executing = 2)
    (hstep : TerminalStep m k k') : Output m k' := by
  cases hstep with
  | start hterminal =>
      obtain ⟨hreceived, hsent⟩ := h.closed hterminal
      refine ⟨nofun, fun t ht => ⟨[], ?_, hsent⟩⟩
      cases ht
      show Terminal.init.run m (k.mail.received 2) = _
      rw [hreceived]
      rfl
  | rest t hterminal mail hpending hrests =>
      refine h.stay rfl (congrFun hrests.received 2) ?_
      show (mail.sent 0).filterMap _ = _
      rw [hrests.sent]
  | ignore t hterminal msg msgs hpending t' hhandle mail htakes =>
      have hself := htakes.received_self
      rw [hexec] at hself
      refine h.opened_take hterminal hhandle rfl hself ?_
      show (mail.sent 0).filterMap _ = _
      rw [htakes.sent]
      exact (List.append_nil _).symm
  | answer t hterminal msg msgs hpending t' area hhandle taken mail htakes hcpu hhands hwakes =>
      have hself := htakes.received_self
      rw [hexec] at hself
      refine h.opened_take hterminal hhandle rfl ((congrFun hhands.received 2).trans hself) ?_
      show (mail.sent 0).filterMap _ = _
      rw [hhands.filterMap_sent, htakes.sent, handTo_self]
      rfl

/-- **One step** keeps the terminal in step with its messages: only the terminal's own sections
change either of them. -/
theorem step {op : KernelOp} (h : Output m k) (hstep : KernelStep m k op k') : Output m k' := by
  cases hstep with
  | interruptXHCI hirq mail hcpu hhands hwakes =>
      refine h.stay rfl (congrFun hhands.received 2) ?_
      show (mail.sent 0).filterMap _ = _
      rw [hhands.filterMap_sent, handTo_self]
      exact List.append_nil _
  | interruptTimer hrange k' reported result htimer =>
      rw [htimer.kernel]
      refine h.stay rfl (congrFun htimer.hands.received 2) ?_
      show (k'.mail.sent 0).filterMap _ = _
      rw [htimer.hands.filterMap_sent, handTo_self, filterMap_timers fun _ => rfl, List.append_nil]
  | main hexec k' hmain => exact h.mainStep hexec hmain
  | terminal hexec hlate k' hterminal => exact h.terminalStep hexec hterminal
  | _ => exact h.stay rfl rfl rfl

/-- At the start there is no terminal, and nothing has been received or asked for. -/
theorem init (tick : Nat) : Output m (.init tick : Kernel Q) := ⟨fun _ => ⟨rfl, rfl⟩, nofun⟩

end Output

/-! ## Requests to redraw -/

namespace MainStage

/-- A request that has been received and not carried out yet. -/
def callInHand : MainStage → List LayerCall
  | .handle msg => msg.layerCall?.toList
  | _ => []

/-- A call that has been carried out and not reported yet. -/
def finishToSend : MainStage → List Unit
  | .send _ msg => msg.finish?.toList
  | .blink msg => msg.finish?.toList
  | _ => []

end MainStage

/-- The requests are carried out in order, and each is reported finished. -/
structure Redraws (k : Kernel Q) : Prop where
  taken : (k.mail.received 0).filterMap Message.layerCall? = k.layerCalls ++ k.main.callInHand
  finished : (k.layerCalls.map fun _ => ()) =
    (k.mail.sent 2).filterMap Message.finish? ++ k.main.finishToSend

namespace Redraws

/-- A step in which no redraw is carried out and none is reported. -/
theorem stay (h : Redraws k) (hcalls : k'.layerCalls = k.layerCalls)
    (hreceived : k'.mail.received 0 = k.mail.received 0)
    (hsent : (k'.mail.sent 2).filterMap Message.finish? =
      (k.mail.sent 2).filterMap Message.finish?)
    (hinHand : k'.main.callInHand = k.main.callInHand)
    (htoSend : k'.main.finishToSend = k.main.finishToSend) : Redraws k' where
  taken := by rw [hreceived, hcalls, hinHand, h.taken]
  finished := by rw [hcalls, hsent, htoSend, h.finished]

variable [PriorityQueue Q Timer]

/-- A section of the main task. A request is in hand from the moment it is taken until it is carried
out, and then its message `kLayerFinish` is the one to send. -/
theorem mainStep (h : Redraws k) (hexec : k.mail.sys.cpu.executing = 0) (hstep : MainStep k k') :
    Redraws k' := by
  have htaken := h.taken
  have hfinished := h.finished
  cases hstep with
  | newTask hmain mail hinv hmanager hcpu hsent hreceived =>
      refine h.stay rfl (congrFun hreceived 0) ?_ (by rw [hmain]; rfl) (by rw [hmain]; rfl)
      show (mail.sent 2).filterMap _ = _
      rw [hsent]
  | wakeTask hmain mail hcpu hhands hwakes =>
      refine h.stay rfl (congrFun hhands.received 0) ?_ (by rw [hmain]; rfl) (by rw [hmain]; rfl)
      show (mail.sent 2).filterMap _ = _
      rw [hhands.filterMap_sent]
      exact List.append_nil _
  | take hmain msg msgs mail hpending htakes =>
      have hself := htakes.received_self
      rw [hexec] at hself
      rw [hmain] at htaken hfinished
      refine ⟨?_, ?_⟩
      · show (mail.received 0).filterMap _ = k.layerCalls ++ msg.layerCall?.toList
        rw [hself, List.filterMap_append, htaken, List.filterMap_cons, List.filterMap_nil]
        cases msg.layerCall? <;> simp [MainStage.callInHand]
      · show _ = (mail.sent 2).filterMap _ ++ _
        rw [htakes.sent, hfinished]
        rfl
  | rest hmain mail hpending hrests =>
      refine h.stay rfl (congrFun hrests.received 0) ?_ (by rw [hmain]; rfl) (by rw [hmain]; rfl)
      show (mail.sent 2).filterMap _ = _
      rw [hrests.sent]
  | notify i push pushes driver hmain mail hcpu hhands =>
      exact h.stay rfl (congrFun hhands.received 0)
        (hhands.filterMap_sent_handTo_ne (p := 2) (by decide)) (by rw [hmain]; rfl)
        (by rw [hmain]; rfl)
  | layer op layerId x y w height hmain =>
      rw [hmain] at htaken hfinished
      refine ⟨?_, ?_⟩
      · rw [htaken]
        exact (List.append_nil _).symm
      · show (k.layerCalls ++ _).map _ = (k.mail.sent 2).filterMap _ ++ [()]
        rw [List.map_append, hfinished]
        simp [MainStage.finishToSend, Message.finish?]
  | send msg hmain mail hcpu hhands hwakes =>
      rw [hmain] at htaken hfinished
      refine ⟨?_, ?_⟩
      · show (mail.received 0).filterMap _ = _
        rw [hhands.received, htaken]
        rfl
      · show k.layerCalls.map _ = (mail.sent 2).filterMap _ ++ []
        rw [hhands.filterMap_sent, hfinished, handTo_self, List.filterMap_cons, List.filterMap_nil]
        cases hfinish : msg.finish? <;> simp [MainStage.finishToSend, hfinish]
  | _ => exact h.stay rfl rfl rfl (by rw [‹k.main = _›]; rfl) (by rw [‹k.main = _›]; rfl)

/-- **One step** keeps both splits: the interrupts and the terminal's task send no `kLayerFinish`
and take nothing from the main task's mailbox. -/
theorem step {m : Machine} {op : KernelOp} (h : Redraws k) (hstep : KernelStep m k op k') :
    Redraws k' := by
  cases hstep with
  | interruptXHCI hirq mail hcpu hhands hwakes =>
      exact h.stay rfl (congrFun hhands.received 0)
        (hhands.filterMap_sent_handTo_ne (p := 2) (by decide)) rfl rfl
  | interruptTimer hrange k' reported result htimer =>
      rw [htimer.kernel]
      exact h.stay rfl (congrFun htimer.hands.received 0)
        (htimer.hands.filterMap_sent_handTo_ne (p := 2) (by decide)) rfl rfl
  | main hexec k' hmain => exact h.mainStep hexec hmain
  | terminal hexec hlate k' hterminal =>
      have hother : (0 : TaskPtr) ≠ k.mail.sys.cpu.executing := by
        rw [hexec]
        exact nofun
      cases hterminal with
      | start hterminal => exact h.stay rfl rfl rfl rfl rfl
      | rest t hterminal mail hpending hrests =>
          refine h.stay rfl (congrFun hrests.received 0) ?_ rfl rfl
          show (mail.sent 2).filterMap _ = _
          rw [hrests.sent]
      | ignore t hterminal msg msgs hpending t' hhandle mail htakes =>
          refine h.stay rfl (htakes.received_of_ne hother) ?_ rfl rfl
          show (mail.sent 2).filterMap _ = _
          rw [htakes.sent]
      | answer t hterminal msg msgs hpending t' area hhandle taken mail htakes hcpu hhands hwakes =>
          refine h.stay rfl ((congrFun hhands.received 0).trans (htakes.received_of_ne hother)) ?_
            rfl rfl
          show (mail.sent 2).filterMap _ = _
          rw [hhands.filterMap_sent_handTo_ne (p := 2) (by decide), htakes.sent]
  | _ => exact h.stay rfl rfl rfl rfl rfl

/-- At the start nothing has been received or carried out. -/
theorem init (tick : Nat) : Redraws (.init tick : Kernel Q) := ⟨rfl, rfl⟩

end Redraws

/-! ## Every run -/

namespace Kernel.Reachable

variable [PriorityQueue Q Timer] {m : Machine} {tick : Nat}

/-- In every reachable state the keys are where `Delivery` says, by induction on the run. -/
theorem delivery (htick : tick < kTimer05Sec) (hr : k.Reachable m tick) : Delivery k :=
  hr.invariant _ htick (.init tick) fun _ _ _ _ _ h hstep => h.step hstep

/-- In every reachable state the terminal is what its messages have made of it. -/
theorem output (htick : tick < kTimer05Sec) (hr : k.Reachable m tick) : Output m k :=
  hr.invariant _ htick (.init tick) fun _ _ _ _ _ h hstep => h.step hstep

/-- In every reachable state the requests to redraw are where `Redraws` says. -/
theorem redraws (htick : tick < kTimer05Sec) (hr : k.Reachable m tick) : Redraws k :=
  hr.invariant _ htick (.init tick) fun _ _ _ _ _ h hstep => h.step hstep

/-- The keys that have been called for, by what has become of them. -/
theorem pressed_eq (htick : tick < kTimer05Sec) (hr : k.Reachable m tick) :
    k.pressed.map Prod.snd = k.routed.map Prod.fst ++ k.main.keyInHand ++
      (k.mail.sys.manager.pending 0).filterMap Message.key? ++ k.main.toNotify := by
  rw [(hr.delivery htick).observed, (hr.roles htick).1.mail.fifo, List.filterMap_append,
    (hr.delivery htick).taken]

/-- The keys for the terminal. -/
theorem forTerminal_eq (htick : tick < kTimer05Sec) (hr : k.Reachable m tick) :
    k.forTerminal = (k.mail.received 2).filterMap Message.key? ++
      (k.mail.sys.manager.pending 2).filterMap Message.key? ++ k.main.keyToSend := by
  rw [(hr.delivery htick).forwarded, (hr.roles htick).1.mail.fifo, List.filterMap_append]

/-- The requests to redraw. -/
theorem requests_eq (htick : tick < kTimer05Sec) (hr : k.Reachable m tick) :
    (k.mail.sent 0).filterMap Message.layerCall? = k.layerCalls ++ k.main.callInHand ++
      (k.mail.sys.manager.pending 0).filterMap Message.layerCall? := by
  rw [(hr.roles htick).1.mail.fifo, List.filterMap_append, (hr.redraws htick).taken]

/-- The calls that have been carried out, by where the message about them is. -/
theorem length_layerCalls (htick : tick < kTimer05Sec) (hr : k.Reachable m tick) :
    k.layerCalls.length = ((k.mail.received 2).filterMap Message.finish?).length +
      ((k.mail.sys.manager.pending 2).filterMap Message.finish?).length +
        k.main.finishToSend.length := by
  have hlength := congrArg List.length (hr.redraws htick).finished
  rwa [(hr.roles htick).1.mail.fifo, List.filterMap_append, List.length_append,
    List.length_append, List.length_map] at hlength

end Kernel.Reachable

/-- The start of the system, a keyboard that is configured, and its report of an `a`, up to the moment
at which all tasks but the idle task sleep again. -/
def typing : List KernelOp :=
  List.replicate 7 .main ++ [.terminal, .terminal, .event (.configured 0 1), .interruptXHCI,
    .interruptTimer, .interruptTimer] ++ List.replicate 8 .main ++
  [.report 0 [0, 0, 4, 0, 0, 0, 0, 0], .interruptXHCI, .interruptTimer, .interruptTimer] ++
  List.replicate 15 .main ++ [.terminal, .terminal] ++ List.replicate 6 .main ++
  [.terminal, .terminal]

/-- The kernel at that moment. -/
def typed? : Option (Kernel (List Timer)) :=
  runPermitted (Kernel.step emptyMachine) (fun k op => op.Permitted k) (Kernel.init 0) typing

/-- Every step of the run is permitted and defined. -/
theorem typed?_isSome : typed?.isSome = true := by decide +kernel

/-- The kernel at that moment. -/
def typed : Kernel (List Timer) := typed?.get typed?_isSome

/-- The state is reached by a run from the start, so that every result about reachable states speaks
of it. -/
theorem typed_reachable : typed.Reachable emptyMachine 0 :=
  Transition.Reachable.of_runPermitted .init (Option.some_get typed?_isSome).symm

namespace Kernel.Reachable

variable [PriorityQueue Q Timer] {m : Machine} {tick : Nat}

/-- **No key is lost, doubled or overtaken.** The observer has been called for the new keys of all
reports but at most one of each keyboard. The main task has dealt with these keys in this order, but
for those in its mailbox and the ones it is dealing with; those for the terminal have been received
there in this order, but for those in its mailbox and the one that is being sent. -/
theorem keys_in_order (htick : tick < kTimer05Sec) (hr : k.Reachable m tick) :
    (∀ i keyboard, k.keyboards i = some keyboard → ∃ handled waiting,
      keyboard.reports = handled ++ waiting ∧ waiting.length ≤ 1 ∧
        k.keysOf i = HIDKeyboardDriver.newKeys HIDKeyboardDriver.noReport handled) ∧
    (∀ i, k.keyboards i = none → k.keysOf i = []) ∧
    k.pressed.map Prod.snd = k.routed.map Prod.fst ++ k.main.keyInHand ++
      (k.mail.sys.manager.pending 0).filterMap Message.key? ++ k.main.toNotify ∧
    k.forTerminal = (k.mail.received 2).filterMap Message.key? ++
      (k.mail.sys.manager.pending 2).filterMap Message.key? ++ k.main.keyToSend := by
  have hkeyboards := hr.keyboards htick
  refine ⟨fun i keyboard hkeyboard => ?_, fun i hnone => (hkeyboards.unknown i hnone).1,
    hr.pressed_eq htick, hr.forTerminal_eq htick⟩
  obtain ⟨handled, waiting, hreports, hwaiting, hkeys⟩ := hkeyboards.keysOf_eq hkeyboard
  exact ⟨handled, waiting, hreports, hwaiting.trans (hkeyboards.waiting_length_le hkeyboard), hkeys⟩

/-- The kernel after a key was typed: the terminal has received the one key for it. -/
theorem keys_in_order_typed : typed.forTerminal =
    (typed.mail.received 2).filterMap Message.key? ++
      (typed.mail.sys.manager.pending 2).filterMap Message.key? ++ typed.main.keyToSend :=
  (typed_reachable.keys_in_order (by decide)).2.2.2

/-- **No redraw is lost, doubled or overtaken.** The terminal is what its messages have made of it, and
the main task carries out the redraws they called for in this order; for each one carried out the
task of the terminal gets one message that says so. -/
theorem redraws_in_order (htick : tick < kTimer05Sec) (hr : k.Reachable m tick) :
    (∀ t, k.terminal = some t → ∃ areas,
      Terminal.init.run m (k.mail.received 2) = some (t.terminal, areas) ∧
        areas.map (LayerCall.drawArea t.layerId) = k.layerCalls ++ k.main.callInHand ++
          (k.mail.sys.manager.pending 0).filterMap Message.layerCall?) ∧
    (k.terminal = none → k.layerCalls = []) ∧
    k.layerCalls.length = ((k.mail.received 2).filterMap Message.finish?).length +
      ((k.mail.sys.manager.pending 2).filterMap Message.finish?).length +
        k.main.finishToSend.length := by
  have houtput := hr.output htick
  have hrequests := hr.requests_eq htick
  refine ⟨fun t ht => ?_, fun hnone => ?_, hr.length_layerCalls htick⟩
  · obtain ⟨areas, hrun, hareas⟩ := houtput.opened t ht
    exact ⟨areas, hrun, hareas.symm.trans hrequests⟩
  · have hempty := hrequests.symm.trans (houtput.closed hnone).2
    exact (List.append_eq_nil_iff.mp (List.append_eq_nil_iff.mp hempty).1).1

/-- The kernel after a key was typed: the terminal's task has got one message for each redraw. -/
theorem redraws_in_order_typed : typed.layerCalls.length =
    ((typed.mail.received 2).filterMap Message.finish?).length +
      ((typed.mail.sys.manager.pending 2).filterMap Message.finish?).length +
        typed.main.finishToSend.length :=
  (typed_reachable.redraws_in_order (by decide)).2.2

end Kernel.Reachable

end UhyokOS
