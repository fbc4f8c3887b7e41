import SmartLock.Model.GattsServer
import SmartLock.System.Dispatch

/-!
# Writes to the GATT server

What a write does with memory: a write of the data is read up to the first
NUL, wherever that is, and a write of the command uses a queue that is
never created, and a block of another size than the value.
-/

namespace SmartLock

open Prog

variable {W : World} {g g' : GattsSys} {w : WriteEvt} {x : GattsStep} {steps : List GattsStep}

/-! ## The handler and the lock -/

theorem onGatts_ok {α : Type} {m : M α} {r : α} :
    (onGatts m).run g = (.ok r, g') ↔ ∃ t, m.run g.sys = (.ok r, t) ∧ g' = { g with sys := t } :=
  zoom_ok

theorem onGatts_sys {α : Type} {m : M α} : ((onGatts m).run g).2.sys = (m.run g.sys).2 := rfl

/-- Whether an event of the stack can occur: it has one connection at a
time. -/
def GattsStep.Occurs (g : GattsSys) : GattsStep → Prop
  | gatts (.connect _) => g.sys.isConnected = false
  | gatts .disconnect => g.sys.isConnected = true
  | gatts (.write _) => g.sys.isConnected = true
  | _ => True

/-- What a step is to the lock. -/
def GattsStep.events (g : GattsSys) : GattsStep → List Event
  | lock e => [e]
  | gatts (.connect remoteBda) => [.bleConnect remoteBda]
  | gatts .disconnect => [.bleDisconnect]
  | gatts (.write w) =>
    if w.isPrep = false ∧ findCharAndDesrIndex g w.handle = some .dataRecvVal then
      [.bleWrite (w.value ++ w.behind)]
    else []
  | _ => []

/-- What only a write of the data, and what comes of a connection, touches. -/
def besideData : Frame GattsSys where
  rel g g' := g'.sys = g.sys ∧ g'.sppMtuSize = g.sppMtuSize ∧
    g'.cmdCmdQueue.isSome = g.cmdCmdQueue.isSome
  refl _ := ⟨rfl, rfl, rfl⟩
  trans h₁ h₂ := ⟨h₂.1.trans h₁.1, h₂.2.1.trans h₁.2.1, h₂.2.2.trans h₁.2.2⟩

theorem writeCommand_steps : Steps besideData (writeCommand w) := by
  have hnote (u : CmdUse) : Steps besideData (noteUse u) := fun _ => ⟨rfl, rfl, rfl⟩
  have hsend (buff : List UInt8) : Steps besideData (xQueueSend buff) := by
    refine .bind .get fun g => .bind (hnote _) fun _ => .ite (fun _ => .fail _) fun _ => ?_
    exact fun g => ⟨rfl, rfl, Option.isSome_map⟩
  exact .bind .get fun g => .ite (fun _ => .bind (hnote _) fun _ => hsend _) fun _ => .pure _

theorem gattsWrite_data (hprep : w.isPrep = false)
    (hdata : findCharAndDesrIndex g w.handle = some .dataRecvVal) :
    (gattsWrite W w).run g = (onGatts (processNormalData W w.data)).run g := by
  rw [gattsWrite, run_get_bind, if_neg (by simp [hprep]), hdata]

theorem gattsWrite_command (hprep : w.isPrep = false)
    (hcommand : findCharAndDesrIndex g w.handle = some .commandVal) :
    (gattsWrite W w).run g = (writeCommand w).run g := by
  rw [gattsWrite, run_get_bind, if_neg (by simp [hprep]), hcommand]

/-- A write of anything but the data is beside it. -/
theorem gattsWrite_beside
    (h : ¬ (w.isPrep = false ∧ findCharAndDesrIndex g w.handle = some .dataRecvVal)) :
    besideData.rel g ((gattsWrite W w).run g).2 := by
  rw [gattsWrite, run_get_bind]
  by_cases hprep : w.isPrep = true
  · rw [if_pos hprep]
    exact besideData.refl _
  · rw [if_neg hprep]
    split
    · exact writeCommand_steps g
    · exact ⟨rfl, rfl, rfl⟩
    · exact absurd ⟨by simpa using hprep, ‹_›⟩ h
    · exact besideData.refl _

theorem run_one {e : Event} {s : Sys} : ((run W [e]).run s).2 = ((step W e).run s).2 := by
  rcases hstep : (step W e).run s with ⟨_ | _, t⟩
  · rw [run, exec_cons, run_bind_error hstep]
  · rw [run, exec_cons, run_bind_ok hstep]
    rfl

/-- An event that can occur is handled. -/
theorem run_singleton {e : Event} {s : Sys} (h : e.enabled W s = true) :
    ((run W [e]).run s).2 = ((handle W e).run s).2 := by
  rw [run_one, step, run_get_bind, if_pos h]

/-- **The handler does to the lock what the events of the lock do.** -/
theorem gattsStep_sys (hW : W.target = .esp32s3) (hx : x.Occurs g) :
    ((gattsStep W x).run g).2.sys = ((run W (x.events g)).run g.sys).2 := by
  cases x with
  | lock e => exact onGatts_sys.trans run_one.symm
  | gatts e =>
    cases e with
    | write w =>
      have henabled : (Event.bleWrite (w.value ++ w.behind)).enabled W g.sys = true :=
        Bool.and_eq_true_iff.2 ⟨beq_iff_eq.2 hW, hx⟩
      by_cases hdata : w.isPrep = false ∧ findCharAndDesrIndex g w.handle = some .dataRecvVal
      · have hevents : (GattsStep.gatts (.write w)).events g = [.bleWrite (w.value ++ w.behind)] :=
          if_pos hdata
        calc ((gattsWrite W w).run g).2.sys
            = ((onGatts (processNormalData W w.data)).run g).2.sys := by
              rw [gattsWrite_data hdata.1 hdata.2]
          _ = ((processNormalData W w.data).run g.sys).2 := onGatts_sys
          _ = ((run W [.bleWrite (w.value ++ w.behind)]).run g.sys).2 :=
              (run_singleton henabled).symm
          _ = ((run W ((GattsStep.gatts (.write w)).events g)).run g.sys).2 := by rw [hevents]
      · have hevents : (GattsStep.gatts (.write w)).events g = [] := if_neg hdata
        calc ((gattsWrite W w).run g).2.sys
            = g.sys := (gattsWrite_beside hdata).1
          _ = ((run W ((GattsStep.gatts (.write w)).events g)).run g.sys).2 := by
              rw [hevents]
              rfl
    | mtu mtu => rfl
    | connect remoteBda =>
      have henabled : (Event.bleConnect remoteBda).enabled W g.sys = true :=
        Bool.and_eq_true_iff.2 ⟨beq_iff_eq.2 hW, by
          rw [show g.sys.isConnected = false from hx]
          rfl⟩
      exact onGatts_sys.trans (run_singleton henabled).symm
    | disconnect =>
      have henabled : Event.bleDisconnect.enabled W g.sys = true :=
        Bool.and_eq_true_iff.2 ⟨beq_iff_eq.2 hW, hx⟩
      exact (run_singleton henabled).symm
    | creatAttrTab statusOk handles =>
      change ((gattsProfileEventHandler W (.creatAttrTab statusOk handles)).run g).2.sys = g.sys
      rw [gattsProfileEventHandler]
      split
      · rfl
      · rfl
    | other => rfl

/-! ## The data -/

variable (W) in
/-- `process_normal_data` goes on with a message that is no ping: Wi-Fi is
connected, and the lock awaits its first invite or has a session with the
client. -/
def HandsOn (s : Sys) : Prop :=
  s.wifiConnected = true ∧
    (((awaitsFirstInviteS3 W).run (s.noted (.message s.bleUserAddr))).1 = .ok true ∨
      ∃ x, s.user s.bleUserAddr = some x ∧ x.state ≠ .disconnected)

variable (W) in
/-- What the lock takes for the message of a write: a ping, or what it hands
on to be decrypted. -/
def ReadsAs (g : GattsSys) (w : WriteEvt) (text : CStr) : Prop :=
  w.isPrep = false ∧ text = w.data ∧ (text = lit "PNG" ∨ HandsOn W g.sys)

/-- A write of the data is read by its own bytes: the lock does the same
whatever stands behind them, and what it takes for the message is all of
them, but for a NUL they may end in. -/
structure OwnBytesOnly (W : World) (g : GattsSys) (w : WriteEvt) : Prop where
  same : ∀ r r', (gattsProfileEventHandler W (.write { w with behind := r })).run g =
    (gattsProfileEventHandler W (.write { w with behind := r' })).run g
  whole : ∀ r text, ReadsAs W g { w with behind := r } text →
    w.value = text ∨ w.value = text ++ [0]

variable (W) in
/-- The write is prepared only; or its only NUL is its last byte; or the
lock hands nothing on, and the value is neither the beginning of a ping nor
a ping with more behind its NUL. -/
def EndsItself (g : GattsSys) (w : WriteEvt) : Prop :=
  w.isPrep = true ∨ (∃ text, (0 : UInt8) ∉ text ∧ w.value = text ++ [0]) ∨
    (¬ HandsOn W g.sys ∧ ¬ w.value <+: lit "PNG" ∧ ¬ lit "PNG" ++ [0] <+: w.value)

/-- A value that holds a NUL, at the first of them. -/
theorem exists_text {value : List UInt8} (h : (0 : UInt8) ∈ value) :
    ∃ text tail, (0 : UInt8) ∉ text ∧ value = text ++ 0 :: tail := by
  obtain ⟨text, tail, hvalue, htext⟩ := List.eq_append_cons_of_mem h
  exact ⟨text, tail, htext, hvalue⟩

theorem cstr_text {text tail : List UInt8} (h : (0 : UInt8) ∉ text) :
    cstr (text ++ 0 :: tail) = text := by
  rw [cstr_append h]
  exact List.append_nil text

variable (W) in
/-- What `process_normal_data` does with a message that is no ping and is
not handed on. -/
def dismiss : M Unit := do
  let s ← Prog.get
  if s.wifiConnected then
    observe (.message s.bleUserAddr)
    let _ ← awaitsFirstInviteS3 W
    let _ ← getUserState s.bleUserAddr
    disconnectBleS3

/-- **A message that is not handed on** is looked at for a ping alone. -/
theorem processNormalData_dismissed {s : Sys} {data : CStr} (hping : data ≠ lit "PNG")
    (hno : ¬ HandsOn W s) : (processNormalData W data).run s = (dismiss W).run s := by
  rw [processNormalData, run_get_bind, if_neg hping, dismiss, run_get_bind]
  by_cases hwifi : s.wifiConnected = true
  · rw [if_pos hwifi, if_pos hwifi, run_observe_bind, run_observe_bind]
    rcases hawaits : (awaitsFirstInviteS3 W).run (s.noted (.message s.bleUserAddr)) with
      ⟨e | awaits, t⟩
    · rw [run_bind_error hawaits, run_bind_error hawaits]
    · rw [run_bind_ok hawaits, run_bind_ok hawaits]
      have hrel : looking.Rel _ t := (awaitsFirstInviteS3_within trivial).of_ok hawaits
      have huser : t.user s.bleUserAddr = s.user s.bleUserAddr := hrel.user_eq id fun h => h.1
      cases awaits with
      | true => exact absurd ⟨hwifi, .inl (by rw [hawaits])⟩ hno
      | false =>
        change (sessionResponse W s.bleUserAddr data >>= _).run t = _
        rw [sessionResponse, run_bind_bind]
        refine run_bind_congr_of fun state u hstate => ?_
        obtain ⟨x, v, hx, hret⟩ := bind_ok.1 hstate
        obtain ⟨hx, rfl⟩ := derefUser_ok.1 hx
        cases hret
        -- the session of the client is closed
        have hclosed : x.state = .disconnected := by
          by_contra hopen
          exact hno ⟨hwifi, .inr ⟨x, huser.symm.trans hx, hopen⟩⟩
        rw [hclosed]
        rfl
  · rw [if_neg hwifi, if_neg hwifi]

/-- What is dismissed is not answered. -/
theorem dismiss_silent {s : Sys} : Grows (fun o => ∀ text, o ≠ .bleText text) s
    ((dismiss W).run s).2 := by
  let F : Footprint := .free fun o _ => ∀ text, o ≠ .bleText text
  have hm : Within F (dismiss W) :=
    .bind .get fun _ => .ite
      (fun _ => .bind (observe_within (.inr fun _ => nofun)) fun _ =>
        .bind (awaitsFirstInviteS3_within trivial) fun _ => .bind getUserState_within fun _ =>
          observe_within (.inr fun _ => nofun))
      fun _ => .pure _
  refine (hm s).log.mono fun o ho text heq => ?_
  rcases ho with hambient | hfree
  · rw [heq] at hambient
    cases hambient
  · exact hfree [] text heq

/-- A ping is answered. -/
theorem ping_answered {s : Sys} (hconnected : s.isConnected = true) :
    ∃ text new, ((processNormalData W (lit "PNG")).run s).2.log = .bleText text :: new ++ s.log := by
  rw [processNormalData, run_get_bind, if_pos rfl, sendDataBleS3, run_get_bind, if_pos hconnected,
    run_bind_ok (run_sprintf ..)]
  exact ⟨_, overruns .., rfl⟩

/-- What a write of the data is read as. -/
theorem write_run (hprep : w.isPrep = false)
    (hdata : findCharAndDesrIndex g w.handle = some .dataRecvVal) (r : List UInt8) :
    (gattsProfileEventHandler W (.write { w with behind := r })).run g =
      (onGatts (processNormalData W (cstr (w.value ++ r)))).run g :=
  gattsWrite_data (w := { w with behind := r }) hprep hdata

/-- **A value that ends itself** is read by its own bytes. -/
theorem EndsItself.ownBytesOnly (h : EndsItself W g w)
    (hdata : findCharAndDesrIndex g w.handle = some .dataRecvVal) : OwnBytesOnly W g w := by
  cases hprep : w.isPrep with
  | true =>
    refine ⟨fun r r' => ?_, fun r text htakes => ?_⟩
    · change (gattsWrite W _).run g = (gattsWrite W _).run g
      rw [gattsWrite, gattsWrite, run_get_bind, run_get_bind, if_pos (by simpa using hprep),
        if_pos (by simpa using hprep)]
    · cases hprep.symm.trans htakes.1
  | false =>
    rcases h with h | ⟨text, htext, hvalue⟩ | ⟨hno, hshort, hlong⟩
    · cases hprep.symm.trans h
    · -- the NUL the value ends in is where the message ends
      have hread (r : List UInt8) : cstr (w.value ++ r) = text := by
        rw [hvalue, List.append_assoc]
        exact cstr_text htext
      refine ⟨fun r r' => ?_, fun r text' htakes => .inr ?_⟩
      · rw [write_run hprep hdata, write_run hprep hdata, hread, hread]
      · obtain rfl : text' = text := htakes.2.1.trans (hread r)
        exact hvalue
    · -- no memory makes a ping of the value
      have hping (r : List UInt8) : cstr (w.value ++ r) ≠ lit "PNG" := by
        intro hread
        by_cases hnul : (0 : UInt8) ∈ w.value
        · obtain ⟨text, tail, htext, hvalue⟩ := exists_text hnul
          rw [hvalue, List.append_assoc, List.cons_append, cstr_text htext] at hread
          exact hlong ⟨tail, by rw [hvalue, hread, List.append_assoc]; rfl⟩
        · rw [cstr_append hnul] at hread
          exact hshort ⟨_, hread⟩
      refine ⟨fun r r' => ?_, fun r text htakes => ?_⟩
      · have hrun : (processNormalData W (cstr (w.value ++ r))).run g.sys =
            (processNormalData W (cstr (w.value ++ r'))).run g.sys := by
          rw [processNormalData_dismissed (hping r) hno, processNormalData_dismissed (hping r') hno]
        rw [write_run hprep hdata, write_run hprep hdata]
        exact congrArg (fun x => (x.1, { g with sys := x.2 })) hrun
      · rcases htakes.2.2 with hpng | hhands
        · exact absurd (htakes.2.1.symm.trans hpng) (hping r)
        · exact absurd hhands hno

/-- **A write of the data is read by its own bytes** exactly if it ends
itself, in every state in which a client is connected. -/
theorem ownBytesOnly_iff (hconnected : g.sys.isConnected = true)
    (hdata : findCharAndDesrIndex g w.handle = some .dataRecvVal) :
    OwnBytesOnly W g w ↔ EndsItself W g w := by
  refine ⟨fun h => ?_, fun h => h.ownBytesOnly hdata⟩
  by_contra hends
  obtain ⟨hprep, hlast, hrest⟩ : w.isPrep = false ∧
      (¬ ∃ text, (0 : UInt8) ∉ text ∧ w.value = text ++ [0]) ∧
      (HandsOn W g.sys ∨ w.value <+: lit "PNG" ∨ lit "PNG" ++ [0] <+: w.value) := by
    unfold EndsItself at hends
    push Not at hends
    refine ⟨Bool.eq_false_iff.2 hends.1,
      fun ⟨text, htext, hvalue⟩ => hends.2.1 text htext hvalue, ?_⟩
    by_contra hnone
    push Not at hnone
    exact hnone.2.2 (hends.2.2 hnone.1 hnone.2.1)
  by_cases hnul : (0 : UInt8) ∈ w.value
  · -- more stands behind the first NUL, and is not read
    obtain ⟨text, tail, htext, hvalue⟩ := exists_text hnul
    have hread : cstr (w.value ++ []) = text := by
      rw [hvalue, List.append_nil, cstr_text htext]
    have htakes : ReadsAs W g { w with behind := [] } text := by
      refine ⟨hprep, hread.symm, ?_⟩
      rcases hrest with hhands | hshort | ⟨more, hlong⟩
      · exact .inr hhands
      · exact absurd (hshort.subset hnul) (by decide)
      · left
        rw [← hlong, List.append_assoc, List.append_assoc] at hread
        exact hread.symm.trans (cstr_text (by decide))
    rcases h.whole [] text htakes with heq | heq
    · exact htext (heq ▸ hnul)
    · exact hlast ⟨text, htext, heq⟩
  · -- what stands behind the value belongs to the message
    have hread (r : List UInt8) : cstr (w.value ++ r) = w.value ++ cstr r := cstr_append hnul r
    have hwhole {r : List UInt8} {text : CStr} (htakes : ReadsAs W g { w with behind := r } text) :
        w.value = text := by
      refine (h.whole r text htakes).resolve_right fun heq => hnul ?_
      rw [heq]
      exact List.mem_append_right _ (List.mem_singleton.2 rfl)
    rcases hrest with hhands | ⟨more, hshort⟩ | hlong
    · have heq := hwhole (r := [1]) ⟨hprep, rfl, .inr hhands⟩
      rw [WriteEvt.data, hread] at heq
      exact absurd (List.append_right_eq_self.1 heq.symm : cstr [1] = []) (by decide)
    · have hnotin : (0 : UInt8) ∉ more := fun hmem =>
        absurd (hshort ▸ List.mem_append_right w.value hmem) (by decide)
      have hpng : cstr (w.value ++ (more ++ [0])) = lit "PNG" := by
        rw [hread, cstr_text hnotin, hshort]
      have hvalue : w.value = lit "PNG" :=
        hwhole (r := more ++ [0]) ⟨hprep, hpng.symm, .inl rfl⟩
      -- the ping ends where the memory behind it begins with a NUL
      by_cases hhands : HandsOn W g.sys
      · have heq := hwhole (r := [1]) ⟨hprep, rfl, .inr hhands⟩
        rw [WriteEvt.data, hread] at heq
        exact absurd (List.append_right_eq_self.1 heq.symm : cstr [1] = []) (by decide)
      · have hsame :
            ((gattsProfileEventHandler W (.write { w with behind := [0] })).run g).2.sys.log =
              ((gattsProfileEventHandler W (.write { w with behind := [1] })).run g).2.sys.log :=
          congrArg (fun x => x.2.sys.log) (h.same [0] [1])
        rw [write_run hprep hdata, write_run hprep hdata, onGatts_sys, onGatts_sys, hvalue,
          processNormalData_dismissed (by decide : cstr (lit "PNG" ++ [1]) ≠ lit "PNG")
            hhands] at hsame
        obtain ⟨text, new, hanswer⟩ := ping_answered (W := W) hconnected
        obtain ⟨new', hsilent, hall⟩ := dismiss_silent (W := W) (s := g.sys)
        rw [show cstr (lit "PNG" ++ [0]) = lit "PNG" from rfl, hanswer, hsilent] at hsame
        have hnew := List.append_cancel_right hsame
        exact hall (.bleText text) (hnew ▸ List.mem_cons_self ..) text rfl
    · exact hnul (hlong.subset (by decide))

/-! ## The command -/

variable (W) in
/-- What a write does with memory in a state, the latest first. -/
def usesOf (w : WriteEvt) (g : GattsSys) : List CmdUse :=
  ((gattsProfileEventHandler W (.write w)).run { g with uses := [] }).2.uses

variable (W) in
/-- A write uses the queue only if it was created, and copies at most as many
bytes as were allocated. -/
structure WriteSafe (w : WriteEvt) (g : GattsSys) : Prop where
  created : .queueSend false ∉ usesOf W w g
  fits : ∀ allocated len, .copy allocated len ∈ usesOf W w g → len ≤ allocated

/-- The branch of the command value is taken, and finds memory. -/
def TakesCommand (w : WriteEvt) (g : GattsSys) : Prop :=
  w.isPrep = false ∧ findCharAndDesrIndex g w.handle = some .commandVal ∧ w.mallocGives = true

/-- **The branch of the command value** makes one copy, and one use of the
queue. -/
theorem usesOf_command (hmtu : 3 ≤ g.sppMtuSize.toNat) (h : TakesCommand w g) :
    usesOf W w g =
      [.queueSend g.cmdCmdQueue.isSome, .copy (g.sppMtuSize.toNat - 3) w.value.length] := by
  obtain ⟨hprep, hcommand, hgives⟩ := h
  have hrun : (gattsProfileEventHandler W (.write w)).run { g with uses := [] } =
      (writeCommand w).run { g with uses := [] } :=
    gattsWrite_command (g := { g with uses := [] }) hprep hcommand
  rw [usesOf, hrun, writeCommand, run_get_bind, if_pos ⟨hgives, hmtu⟩]
  change ((if g.cmdCmdQueue = none then _ else _ : Prog GattsSys Fault Unit).run _).2.uses = _
  split
  · rfl
  · rfl

/-- Every other write leaves memory alone. -/
theorem usesOf_other (h : ¬ TakesCommand w g) : usesOf W w g = [] := by
  change ((gattsWrite W w).run { g with uses := [] }).2.uses = _
  rw [gattsWrite, run_get_bind]
  by_cases hprep : w.isPrep = true
  · rw [if_pos hprep]
    rfl
  · rw [if_neg hprep]
    split
    · rw [writeCommand, run_get_bind, if_neg]
      · rfl
      · exact fun hgives => h ⟨by simpa using hprep, ‹_›, hgives.1⟩
    · rfl
    · rfl
    · rfl

/-- **What is copied fits** exactly if the value is not longer than a packet
of the MTU. -/
theorem copy_fits_iff (hmtu : 3 ≤ g.sppMtuSize.toNat) :
    (∀ allocated len, .copy allocated len ∈ usesOf W w g → len ≤ allocated) ↔
      (TakesCommand w g → w.value.length ≤ g.sppMtuSize.toNat - 3) := by
  by_cases h : TakesCommand w g
  · rw [usesOf_command hmtu h]
    simp [h]
  · rw [usesOf_other h]
    simp [h]

/-- **A write is safe** exactly if it is not one of the command value, or
the queue was created and the value fits. -/
theorem writeSafe_of_queue (hmtu : 3 ≤ g.sppMtuSize.toNat) :
    WriteSafe W w g ↔ (TakesCommand w g →
      g.cmdCmdQueue.isSome ∧ w.value.length ≤ g.sppMtuSize.toNat - 3) := by
  constructor
  · intro h htakes
    refine ⟨?_, (copy_fits_iff hmtu).1 h.fits htakes⟩
    have hcreated := h.created
    rw [usesOf_command hmtu htakes] at hcreated
    by_contra hnone
    rw [Bool.not_eq_true] at hnone
    exact hcreated (by rw [hnone]; exact List.mem_cons_self ..)
  · intro h
    refine ⟨?_, (copy_fits_iff hmtu).2 fun htakes => (h htakes).2⟩
    by_cases htakes : TakesCommand w g
    · rw [usesOf_command hmtu htakes]
      simp [(h htakes).1]
    · rw [usesOf_other htakes]
      exact List.not_mem_nil

/-! ## Runs -/

/-- The MTU is one that can be negotiated, and the queue is as it was at the
start. -/
structure Negotiated (created : Bool) (g : GattsSys) : Prop where
  mtu : 23 ≤ g.sppMtuSize.toNat
  queue : g.cmdCmdQueue.isSome = created

theorem Negotiated.of_beside {created : Bool} (h : Negotiated created g)
    (hrel : besideData.rel g g') : Negotiated created g' :=
  ⟨by rw [hrel.2.1]; exact h.mtu, hrel.2.2.trans h.queue⟩

/-- **No event creates the queue.** -/
theorem Negotiated.step {created : Bool} (h : Negotiated created g)
    (hmtu : ∀ mtu, x = .gatts (.mtu mtu) → 23 ≤ mtu.toNat)
    (hrun : (gattsStep W x).run g = (.ok (), g')) : Negotiated created g' := by
  -- a program of the lock touches neither
  have hlock {m : M Unit} (hm : (onGatts m).run g = (.ok (), g')) : Negotiated created g' := by
    obtain ⟨t, _, rfl⟩ := onGatts_ok.1 hm
    exact ⟨h.mtu, h.queue⟩
  cases x with
  | lock e => exact hlock hrun
  | gatts e =>
    cases e with
    | write w =>
      by_cases hdata : w.isPrep = false ∧ findCharAndDesrIndex g w.handle = some .dataRecvVal
      · exact hlock ((gattsWrite_data hdata.1 hdata.2).symm.trans hrun)
      · exact h.of_beside (Frame.of_run (gattsWrite_beside hdata) hrun)
    | mtu mtu =>
      cases hrun
      exact ⟨hmtu mtu rfl, h.queue⟩
    | connect remoteBda => exact hlock hrun
    | disconnect =>
      obtain ⟨_, g₁, hmodify, hrest⟩ := bind_ok.1 hrun
      cases hmodify
      obtain ⟨t, _, rfl⟩ := onGatts_ok.1 hrest
      exact ⟨h.mtu, h.queue⟩
    | creatAttrTab statusOk handles =>
      change (if _ then _ else _ : Prog GattsSys Fault Unit).run g = _ at hrun
      split at hrun
      · cases hrun
        exact ⟨h.mtu, h.queue⟩
      · cases hrun
        exact h
    | other =>
      cases hrun
      exact h

theorem Negotiated.run {created : Bool} (h : Negotiated created g)
    (hmtu : ∀ x ∈ steps, ∀ mtu, x = .gatts (.mtu mtu) → 23 ≤ mtu.toNat)
    (hrun : (exec (gattsStep W) steps).run g = (.ok (), g')) : Negotiated created g' :=
  exec_keeps_of_mem (fun _ _ _ hx hg => hg.step hx) hmtu h hrun

/-- Had `spp_task_init` been called, only the size of the block would be left
to go wrong. -/
theorem writeSafe_after_init {g₁ : GattsSys} (hboot : GattsBoot W g)
    (hinit : sppTaskInit.run g = (.ok (), g₁))
    (hmtu : ∀ x ∈ steps, ∀ mtu, x = .gatts (.mtu mtu) → 23 ≤ mtu.toNat)
    (hrun : (exec (gattsStep W) steps).run g₁ = (.ok (), g')) :
    WriteSafe W w g' ↔ (TakesCommand w g' → w.value.length ≤ g'.sppMtuSize.toNat - 3) := by
  cases hinit
  have hstart : Negotiated true { g with cmdCmdQueue := some [] } :=
    ⟨by rw [hboot.sppMtuSize]; decide, rfl⟩
  have h : Negotiated true g' := hstart.run hmtu hrun
  rw [writeSafe_of_queue (by have := h.mtu; omega)]
  refine imp_congr_right fun _ => ?_
  rw [h.queue]
  simp

/-- **In every state a run from the start reaches, a write is safe exactly if
it is not one of the command value**, for which there is memory. -/
theorem writeSafe_iff (hboot : GattsBoot W g)
    (hmtu : ∀ x ∈ steps, ∀ mtu, x = .gatts (.mtu mtu) → 23 ≤ mtu.toNat)
    (hrun : (exec (gattsStep W) steps).run g = (.ok (), g')) :
    WriteSafe W w g' ↔ ¬ TakesCommand w g' := by
  have hstart : Negotiated false g :=
    ⟨by rw [hboot.sppMtuSize]; decide, by rw [hboot.cmdCmdQueue]; rfl⟩
  have h : Negotiated false g' := hstart.run hmtu hrun
  rw [writeSafe_of_queue (by have := h.mtu; omega)]
  refine imp_congr_right fun _ => ?_
  rw [h.queue]
  simp

/-! ## Writes to a server that was started -/

/-- The state `ble_s3_main` leaves, on a lock where nothing happened yet. -/
def GattsSys.initial : GattsSys := ⟨Sys.initial, fun _ => 0, 123, none, false, []⟩

theorem gattsBoot_initial : GattsBoot (World.still .esp32s3 100) GattsSys.initial :=
  ⟨boot_initial, rfl, rfl, rfl, rfl, rfl, rfl⟩

/-- The attributes are created, a client connects, and the least MTU is
negotiated. -/
def gattsStart : List GattsStep :=
  [.gatts (.creatAttrTab true [40, 41, 42, 43, 44, 45, 46, 47, 48, 49, 50]),
    .gatts (.connect #v[2, 0, 0, 0, 0, 1]), .gatts (.mtu 23)]

/-- What this leads to. -/
def gattsStarted : GattsSys :=
  ((exec (gattsStep (World.still .esp32s3 100)) gattsStart).run GattsSys.initial).2

theorem gattsStart_run : (exec (gattsStep (World.still .esp32s3 100)) gattsStart).run
    GattsSys.initial = (.ok (), gattsStarted) := Prod.ext (by decide +kernel) rfl

theorem gattsStart_mtu : ∀ x ∈ gattsStart, ∀ mtu, x = .gatts (.mtu mtu) → 23 ≤ mtu.toNat := by
  intro x hx mtu hmtu
  subst hmtu
  simp only [gattsStart, List.mem_cons, GattsStep.gatts.injEq, reduceCtorEq, GattsEvent.mtu.injEq,
    List.not_mem_nil, or_false, false_or] at hx
  rw [hx]
  decide

/-- A write of the data is safe. -/
theorem writeSafe_iff_data : WriteSafe (World.still .esp32s3 100)
    ⟨42, false, lit "PNG", [0], true⟩ gattsStarted :=
  (writeSafe_iff gattsBoot_initial gattsStart_mtu gattsStart_run).2 fun h =>
    absurd h.2.1 (by decide +kernel)

/-- **A write of the command value uses a queue that is not there, and copies
more than a packet.** -/
theorem not_always_writeSafe : ¬ ∀ (W : World) (steps : List GattsStep) (g g' : GattsSys)
    (w : WriteEvt), GattsBoot W g →
      (∀ x ∈ steps, ∀ mtu, x = .gatts (.mtu mtu) → 23 ≤ mtu.toNat) →
      (exec (gattsStep W) steps).run g = (.ok (), g') → w.isPrep = false →
      w.value.length ≤ 120 → WriteSafe W w g' := by
  intro h
  have hsafe := h _ _ _ _ ⟨47, false, List.replicate 100 65, [0], true⟩ gattsBoot_initial
    gattsStart_mtu gattsStart_run rfl (by decide)
  exact hsafe.created (by decide +kernel)

/-- A value that ends in its only NUL is read by itself, and so is, while
Wi-Fi is not connected, one that no memory makes a ping of. -/
theorem ownBytesOnly_iff_nul :
    OwnBytesOnly (World.still .esp32s3 100) gattsStarted ⟨42, false, lit "PNG" ++ [0], [], true⟩ ∧
      OwnBytesOnly (World.still .esp32s3 100) gattsStarted ⟨42, false, lit "X", [], true⟩ := by
  have hconnected : gattsStarted.sys.isConnected = true := by decide +kernel
  have hdata : findCharAndDesrIndex gattsStarted 42 = some .dataRecvVal := by decide +kernel
  have hwifi : gattsStarted.sys.wifiConnected = false := by decide +kernel
  refine ⟨(ownBytesOnly_iff hconnected hdata).2 (.inr (.inl ⟨lit "PNG", by decide, rfl⟩)),
    (ownBytesOnly_iff hconnected hdata).2 (.inr (.inr ⟨fun h => ?_, by decide, by decide⟩))⟩
  cases hwifi.symm.trans h.1

/-- **Two writes of the same bytes, of which one is answered.** -/
theorem not_always_ownBytesOnly : ¬ ∀ (W : World) (steps : List GattsStep) (g g' : GattsSys)
    (w : WriteEvt), GattsBoot W g → (exec (gattsStep W) steps).run g = (.ok (), g') →
      w.isPrep = false → findCharAndDesrIndex g' w.handle = some .dataRecvVal →
      ∀ r r', (gattsProfileEventHandler W (.write { w with behind := r })).run g' =
        (gattsProfileEventHandler W (.write { w with behind := r' })).run g' := by
  intro h
  have hsame := h _ _ _ _ ⟨42, false, lit "PN", [], true⟩ gattsBoot_initial gattsStart_run rfl
    (by decide +kernel) (lit "G" ++ [0]) [0]
  have hlog := congrArg (fun r => r.2.sys.log.length) hsame
  revert hlog
  decide +kernel

end SmartLock
