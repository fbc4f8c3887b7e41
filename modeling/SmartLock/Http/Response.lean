import SmartLock.Model.HttpClient

/-!
# The buffer of a response

All requests write at one offset, the static `output_len`, which only
`HTTP_EVENT_ON_FINISH` and a new `output_buffer` put back. While it is, for
each request that data come for, the length of what has come for it, every
buffer holds the body of its own request. A request that is aborted after
some of its body leaves the offset where it was, and the next response is
written behind a gap.
-/

namespace SmartLock

open Prog

variable {req : ℕ → HttpRequest} {r n : ℕ} {c : HttpCall} {cs : List HttpCall}
variable {s s' : HttpState} {body data : List UInt8}

/-! ## Bodies in blocks -/

/-- A body that was written from offset zero, and nothing else. -/
def bodyAt (body : List UInt8) : BlockBytes := fun i => if 0 ≤ i then body[i.toNat]? else none

theorem bodyAt_nil : bodyAt [] = fun _ => none := by
  funext i
  rw [bodyAt, List.getElem?_nil, ite_self]

/-- **What is written where the body ends** continues it. -/
theorem memcpy_bodyAt : memcpy body.length data (bodyAt body) = bodyAt (body ++ data) := by
  funext i
  rw [memcpy, bodyAt, bodyAt]
  by_cases hpos : 0 ≤ i
  · rw [if_pos hpos, if_pos hpos]
    by_cases hbody : i.toNat < body.length
    · rw [if_neg (by omega), List.getElem?_append_left hbody]
    · rw [List.getElem?_append_right (by omega)]
      by_cases hdata : i < body.length + data.length
      · rw [if_pos (by omega), show (i - body.length).toNat = i.toNat - body.length by omega]
      · rw [if_neg (by omega), List.getElem?_eq_none (by omega), List.getElem?_eq_none (by omega)]
  · rw [if_neg (by omega), if_neg hpos, if_neg hpos]

theorem memcpy_nil (off : Int) (block : BlockBytes) : memcpy off [] block = block := by
  funext i
  rw [memcpy, if_neg (by rw [List.length_nil]; omega)]

/-! ## One event -/

/-- The request's body is to be stored in its `user_data`, of `n` bytes. -/
structure HttpRequest.Stores (q : HttpRequest) (n : ℕ) : Prop where
  plain : q.isChunkedResponse = false
  userData : q.userData = some n

/-- What is written behind each `user_data` is the request's body. -/
def HoldsBodies (req : ℕ → HttpRequest) (s : HttpState) : Prop :=
  ∀ r n, (req r).Stores n → s.userData r = bodyAt (s.body r)

/-- The offset is where the body of the request of `c` ends, if its data
are to be stored. -/
def Aligned (req : ℕ → HttpRequest) (c : HttpCall) (s : HttpState) : Prop :=
  ∀ data n, c.event = .onData data → data ≠ [] → (req c.request).Stores n →
    s.outputLen = (s.body c.request).length

/-- A request that finishes has its body in its `user_data`, if it fits:
each byte of it at its offset, and no other byte. -/
def HoldsOwn (req : ℕ → HttpRequest) (c : HttpCall) (s : HttpState) : Prop :=
  c.event = .onFinish → ∀ n, (req c.request).Stores n → (s.body c.request).length ≤ n →
    s.userData c.request = bodyAt (s.body c.request)

/-- Data of a request whose body is to be stored are written at the
offset. -/
theorem httpEventHandler_stores (hevent : c.event = .onData data)
    (hstores : (req c.request).Stores n) : (httpEventHandler req c).run s =
      (.ok espOk, { s.appendUserData c.request data with
        outputLen := wrap32 (s.outputLen + data.length) }) := by
  rw [httpEventHandler, hevent]
  simp only [hstores.plain, hstores.userData]
  rfl

/-- The memory behind each `user_data`, and the bodies, are left. -/
def besideUserData : Frame HttpState where
  rel s t := t.userData = s.userData ∧ t.body = s.body
  refl _ := ⟨rfl, rfl⟩
  trans h₁ h₂ := ⟨h₂.1.trans h₁.1, h₂.2.trans h₁.2⟩

/-- At any other call the handler writes behind no `user_data`. -/
theorem httpEventHandler_beside
    (h : ∀ data n, c.event = .onData data → ¬ (req c.request).Stores n) :
    Steps besideUserData (httpEventHandler req c) := by
  have hmodify {f : HttpState → HttpState} (hf : ∀ s, besideUserData.rel s (f s)) :
      Steps besideUserData (Prog.modify f : Prog HttpState Empty Unit) := .modify hf
  rw [httpEventHandler]
  rcases hevent : c.event with _ | _ | _ | _ | data | _ | _
  case onData =>
    refine .ite (fun _ => .pure _) fun hchunked => ?_
    rcases huser : (req c.request).userData with _ | n
    · have hlast : Steps besideUserData (do
          Prog.modify (HttpState.appendOutput data)
          Prog.modify fun s => { s with outputLen := wrap32 (s.outputLen + data.length) }
          return espOk : Prog HttpState Empty Int) :=
        .bind (hmodify fun _ => ⟨rfl, rfl⟩) fun _ =>
          .bind (hmodify fun _ => ⟨rfl, rfl⟩) fun _ => .pure _
      refine .bind .get fun s => .ite (fun _ => ?_) fun _ => hlast
      refine .bind (hmodify fun _ => ⟨rfl, rfl⟩) fun _ => .ite (fun _ => .pure _) fun _ => ?_
      exact .bind (hmodify fun _ => ⟨rfl, rfl⟩) fun _ => hlast
    · exact absurd ⟨by simpa using hchunked, huser⟩ (h data n hevent)
  case onFinish => exact .bind (hmodify fun _ => ⟨rfl, rfl⟩) fun _ => .pure _
  all_goals exact .pure _

/-! ## Runs -/

/-- **An event keeps the bodies in place**, if the offset is right. -/
theorem httpStep_holdsBodies (hs : HoldsBodies req s) (haligned : Aligned req c s)
    (h : (httpStep req c).run s = (.ok (), s')) : HoldsBodies req s' := by
  obtain ⟨res, s₁, hhandler, hpass⟩ := bind_ok.1 h
  obtain rfl : s₁.passOn c = s' := (Prod.mk.inj hpass).2
  -- either the event stores into the buffer of its own request, or no buffer changes
  by_cases hstores : ∃ data n, c.event = .onData data ∧ (req c.request).Stores n
  · obtain ⟨data, n, hevent, hstores⟩ := hstores
    rw [httpEventHandler_stores hevent hstores] at hhandler
    cases hhandler
    intro r n' hr
    rw [HttpState.passOn, hevent]
    by_cases heq : r = c.request
    · subst heq
      simp only [HttpState.appendUserData, Function.update_self]
      rw [hs _ n hstores]
      -- an empty piece may come at any offset
      by_cases hdata : data = []
      · rw [hdata, memcpy_nil, List.append_nil]
      · rw [haligned data n hevent hdata hstores, memcpy_bodyAt]
    · simp only [HttpState.appendUserData, Function.update_of_ne heq]
      exact hs r n' hr
  · have hbeside := (httpEventHandler_beside fun data n hevent hn =>
      hstores ⟨data, n, hevent, hn⟩).of_ok hhandler
    obtain ⟨huser, hbody⟩ := hbeside
    intro r n' hr
    have hkept : (s₁.passOn c).userData r = s₁.userData r ∧
        (s₁.passOn c).body r = s₁.body r := by
      rcases hevent : c.event with _ | _ | _ | _ | data | _ | _
      case onData =>
        have hne : r ≠ c.request := fun heq => hstores ⟨data, n', hevent, heq ▸ hr⟩
        rw [HttpState.passOn, hevent]
        exact ⟨rfl, Function.update_of_ne hne _ _⟩
      all_goals
        rw [HttpState.passOn, hevent]
        exact ⟨rfl, rfl⟩
    rw [hkept.1, hkept.2, huser, hbody]
    exact hs r n' hr

theorem holdsBodies_initial : HoldsBodies req .initial := fun _ _ _ => bodyAt_nil.symm

/-- **Every response is in its own buffer**, in every run in which data
come only while the offset is where the body they continue ends. -/
theorem holdsOwn_of_aligned (h : Throughout (httpStep req) (Aligned req) cs .initial) :
    Throughout (httpStep req) (HoldsOwn req) cs .initial :=
  Throughout.imp (I := HoldsBodies req) (fun _ _ _ hs haligned => httpStep_holdsBodies hs haligned)
    (fun c _ hs _ _ n hstores _ => hs c.request n hstores) holdsBodies_initial h

/-! ## Requests one after another -/

/-- No request is open, or this one is, `n` bytes of its body having come. -/
def OpenFor (r n : ℕ) : Option (ℕ × ℕ) → Prop
  | none => n = 0
  | some opened => opened = (r, n)

/-- The requests follow one another, none broken off: from the first data
of a request on data come for it alone, until it finishes, and none behind
that; and an `int` holds the length of every body. -/
inductive InSequence : Option (ℕ × ℕ) → List HttpCall → Prop
  | nil {opened : Option (ℕ × ℕ)} : InSequence opened []
  | data {opened : Option (ℕ × ℕ)} {r n : ℕ} {data : List UInt8} {gives : Bool}
    {cs : List HttpCall} (hopen : OpenFor r n opened) (hfits : (n + data.length : Int) ≤ longMax)
    (h : InSequence (some (r, n + data.length)) cs) :
    InSequence opened (⟨r, .onData data, gives⟩ :: cs)
  | finish {opened : Option (ℕ × ℕ)} {r n : ℕ} {gives : Bool} {cs : List HttpCall}
    (hopen : OpenFor r n opened)
    (hover : ∀ c ∈ cs, c.request = r → ∀ data, c.event ≠ .onData data) (h : InSequence none cs) :
    InSequence opened (⟨r, .onFinish, gives⟩ :: cs)
  | other {opened : Option (ℕ × ℕ)} {c : HttpCall} {cs : List HttpCall}
    (hdata : ∀ data, c.event ≠ .onData data) (hfinish : c.event ≠ .onFinish)
    (h : InSequence opened cs) : InSequence opened (c :: cs)

/-- The offset and the bodies are as the open request has them, with `cs`
to come. -/
structure Follows (req : ℕ → HttpRequest) (opened : Option (ℕ × ℕ)) (cs : List HttpCall)
    (s : HttpState) : Prop where
  offset : ∀ r n k, OpenFor r n opened → (req r).Stores k → s.outputLen = n
  body : ∀ r n, opened = some (r, n) → (s.body r).length = n
  fresh : ∀ c ∈ cs, ∀ data, c.event = .onData data → (∀ n, opened ≠ some (c.request, n)) →
    s.body c.request = []

variable {opened : Option (ℕ × ℕ)}

/-- So much of a request has come as is said of it. -/
theorem Follows.length_body (h : Follows req opened (c :: cs) s) (hevent : c.event = .onData data)
    (hopen : OpenFor c.request n opened) : (s.body c.request).length = n := by
  rcases opened with _ | ⟨r, n'⟩
  · rw [h.fresh c (List.mem_cons_self ..) data hevent fun n' => (Option.some_ne_none _).symm,
      List.length_nil]
    exact hopen.symm
  · cases hopen
    exact h.body _ _ rfl

/-- An event that is none of data, nor the end, changes nothing here. -/
theorem httpStep_other (hdata : ∀ data, c.event ≠ .onData data) (hfinish : c.event ≠ .onFinish) :
    (httpStep req c).run s = (.ok (), s) := by
  rw [httpStep, httpEventHandler]
  rcases hevent : c.event with _ | _ | _ | _ | data | _ | _
  case onData => exact absurd hevent (hdata data)
  case onFinish => exact absurd hevent hfinish
  all_goals
    show (Except.ok (), s.passOn c) = _
    rw [HttpState.passOn, hevent]

theorem httpStep_finish {gives : Bool} : (httpStep req ⟨r, .onFinish, gives⟩).run s =
    (.ok (), { s with outputBuffer := none, outputLen := 0 }) := rfl

/-- Data of a request continue its body, and move the offset where they are
stored. -/
theorem httpStep_data (hevent : c.event = .onData data)
    (h : (httpStep req c).run s = (.ok (), s')) :
    s'.body = Function.update s.body c.request (s.body c.request ++ data) ∧
    ∀ k, (req c.request).Stores k → s'.outputLen = wrap32 (s.outputLen + data.length) := by
  obtain ⟨res, s₁, hhandler, hpass⟩ := bind_ok.1 h
  obtain rfl : s₁.passOn c = s' := (Prod.mk.inj hpass).2
  simp only [HttpState.passOn, hevent]
  by_cases hstores : ∃ k, (req c.request).Stores k
  · obtain ⟨k, hstores⟩ := hstores
    rw [httpEventHandler_stores hevent hstores] at hhandler
    cases hhandler
    exact ⟨rfl, fun _ _ => rfl⟩
  · have hbeside := (httpEventHandler_beside fun _ k _ hk => hstores ⟨k, hk⟩).of_ok hhandler
    rw [hbeside.2]
    exact ⟨rfl, fun k hk => absurd ⟨k, hk⟩ hstores⟩

/-- **The offset is right throughout requests that follow one another**,
from a state as the open one has it. -/
theorem InSequence.aligned (h : InSequence opened cs) : ∀ {s : HttpState},
    Follows req opened cs s → Throughout (httpStep req) (Aligned req) cs s := by
  induction h with
  | nil => exact fun _ => trivial
  | @data opened r n data gives cs hopen hfits _ ih =>
    intro s hs
    have hlength : (s.body r).length = n := hs.length_body rfl hopen
    refine ⟨fun _ k _ _ hstores => ?_, fun s' hstep => ih ⟨?_, ?_, ?_⟩⟩
    · rw [hs.offset r n k hopen hstores, hlength]
    · obtain ⟨-, hoffset⟩ := httpStep_data rfl hstep
      rintro _ _ k ⟨rfl, rfl⟩ hstores
      rw [hoffset k hstores, hs.offset r n k hopen hstores, wrap32_of_bounds
        (by simp only [longMin]; omega) hfits, Nat.cast_add]
    · obtain ⟨hbody, -⟩ := httpStep_data rfl hstep
      rintro _ _ ⟨rfl, rfl⟩
      rw [hbody, Function.update_self, List.length_append, hlength]
    · obtain ⟨hbody, -⟩ := httpStep_data rfl hstep
      intro c hc data' hevent hother
      have hne : c.request ≠ r := fun heq => hother _ (by rw [heq])
      rw [hbody, Function.update_of_ne hne]
      refine hs.fresh c (List.mem_cons_of_mem _ hc) data' hevent fun n' hopened => hne ?_
      rw [hopened] at hopen
      exact congrArg Prod.fst hopen
  | @finish opened r n gives cs hopen hover _ ih =>
    intro s hs
    refine ⟨fun _ _ hevent => ?_, fun s' hstep => ih ⟨?_, fun r n hopened => ?_, ?_⟩⟩
    · cases hevent
    · rw [httpStep_finish] at hstep
      cases hstep
      rintro _ _ _ rfl _
      rfl
    · cases hopened
    · rw [httpStep_finish] at hstep
      cases hstep
      intro c hc data hevent _
      refine hs.fresh c (List.mem_cons_of_mem _ hc) data hevent fun n' hopened => ?_
      rw [hopened] at hopen
      exact hover c hc (congrArg Prod.fst hopen) data hevent
  | other hdata hfinish _ ih =>
    intro s hs
    refine ⟨fun data _ hevent => absurd hevent (hdata data), fun s' hstep => ih ?_⟩
    rw [httpStep_other hdata hfinish] at hstep
    cases hstep
    exact ⟨hs.offset, hs.body, fun c hc => hs.fresh c (List.mem_cons_of_mem _ hc)⟩

/-- **Requests that follow one another, none of them broken off, find the
offset where their bodies end.** -/
theorem aligned_of_inSequence (h : InSequence none cs) :
    Throughout (httpStep req) (Aligned req) cs .initial :=
  h.aligned ⟨fun _ _ _ hn _ => congrArg Nat.cast hn.symm, nofun, fun _ _ _ _ _ => rfl⟩

/-! ## Runs on fixed inputs -/

/-- Every response is plain, and every `user_data` a block of 500 bytes. -/
def plainRequest (_ : ℕ) : HttpRequest := ⟨false, -1, some 500⟩

/-- A response that comes in two parts, and the next one. -/
def twoParts : List HttpCall :=
  [⟨0, .onData (lit "[0"), true⟩, ⟨0, .onData (lit "]"), true⟩, ⟨0, .onFinish, true⟩,
    ⟨0, .disconnected, true⟩, ⟨1, .onData (lit "[1]"), true⟩, ⟨1, .onFinish, true⟩]

theorem inSequence_twoParts : InSequence none twoParts := by
  have hsecond : InSequence none [⟨1, .onData (lit "[1]"), true⟩, ⟨1, .onFinish, true⟩] :=
    .data (n := 0) rfl (by decide) (.finish rfl (by simp) .nil)
  exact .data (n := 0) rfl (by decide) (.data rfl (by decide)
    (.finish rfl (by simp) (.other (by simp) (by simp) hsecond)))

theorem holdsOwn_twoParts :
    Throughout (httpStep plainRequest) (HoldsOwn plainRequest) twoParts .initial :=
  holdsOwn_of_aligned (aligned_of_inSequence inSequence_twoParts)

/-- A response that breaks off after two bytes, and a later one. -/
def brokenOff : List HttpCall :=
  [⟨0, .onData (lit "[0"), true⟩, ⟨0, .error, true⟩, ⟨0, .disconnected, true⟩,
    ⟨1, .onData (lit "[]"), true⟩, ⟨1, .onFinish, true⟩]

/-- **The response after one that broke off** is not where it is read. -/
theorem brokenOff_misplaced :
    ¬ Throughout (httpStep plainRequest) (HoldsOwn plainRequest) brokenOff .initial := by
  rintro ⟨_, h⟩
  obtain ⟨_, h⟩ := h _ rfl
  obtain ⟨_, h⟩ := h _ rfl
  obtain ⟨_, h⟩ := h _ rfl
  obtain ⟨h, _⟩ := h _ rfl
  have hfirst := congrFun (h rfl 500 ⟨rfl, rfl⟩ (by decide)) 0
  exact absurd hfirst (by decide)

end SmartLock
