import SmartLock.Crypto.RoundTrip
import SmartLock.Model.System

/-!
# The escape of the UART

A BLE client of the S2 sends a text through the stream in which the module
announces its own lines. A text that starts like such a line is sent with
another first character, which `echo_task` puts back; this is so for one of
the two prefixes it takes for a line.
-/

namespace SmartLock

open Prog

variable {W : World} {c w : CStr} {s : Sys} {atCmd message : CStr → M Unit}
variable {received : List UInt8}

/-! ## The texts, and how they are sent -/

/-- One word, or two. -/
def Base64Text (c : CStr) : Prop :=
  Base64Word c ∨ ∃ w v, Base64Word w ∧ Base64Word v ∧ c = w ++ sep :: v

/-- The other side of `restorePlus`: a leading `+` is sent as `-`. -/
def escapePlus : CStr → CStr
  | 43 :: t => 45 :: t
  | c => c

/-- `BUF_SIZE`. -/
def bufSize : ℕ := 512

/-- `uart_read_bytes` of at most `BUF_SIZE - 1` bytes. -/
def uartRead (pending : List UInt8) : List UInt8 := pending.take (bufSize - 1)

/-- A turn of `echo_task`, with what it does at a line and at a message left
open. -/
def echoTurn (W : World) (atCmd message : CStr → M Unit) (received : List UInt8) : M Unit := do
  let s ← Prog.get
  if s.data = lit "PNG" then sendLOK W
  else if s.wifiConnected ∧ received ≠ [] then
    let data := cstr received
    if strncmpEq (lit "AT+") data 3 ∨ strncmpEq (lit "+") data 1 then
      setData data
      atCmd data
    else
      let data := restorePlus data
      setData data
      message data

theorem echoTask_eq : echoTask W = echoTurn W (handleATCmd W) (handleBleMessage W) := rfl

/-! ## Transparency -/

/-- Whatever is done at a line and at a message, a turn that reads `c` as it
is sent takes it for a message, and hands on `c`. -/
def Transparent (W : World) (c : CStr) : Prop :=
  ∀ (atCmd message : CStr → M Unit) (s : Sys), s.data ≠ lit "PNG" → s.wifiConnected = true →
    (echoTurn W atCmd message (uartRead (escapePlus c))).run s =
      (message c).run { s with data := c }

theorem Base64Text.ne_nil (h : Base64Text c) : c ≠ [] := by
  rcases h with h | ⟨w, v, _, _, rfl⟩
  · exact h.ne_nil
  · simp

/-- A text has no other characters than those of base64, and the
separator. -/
theorem Base64Text.notMem {x : UInt8} (h : Base64Text c) (hx : inAlphabet x = false)
    (hsep : x ≠ sep) : x ∉ c := by
  rcases h with h | ⟨w, v, hw, hv, rfl⟩
  · exact h.notMem hx
  · intro hmem
    rcases List.mem_append.1 hmem with hmem | hmem
    · exact hw.notMem hx hmem
    · rcases List.mem_cons.1 hmem with rfl | hmem
      · exact hsep rfl
      · exact hv.notMem hx hmem

theorem length_escapePlus : (escapePlus c).length = c.length := by
  unfold escapePlus
  split <;> rfl

theorem length_restorePlus : (restorePlus c).length = c.length := by
  unfold restorePlus
  split <;> rfl

/-- **The escape comes off**, from a text without the character put in. -/
theorem restorePlus_escapePlus (h : (45 : UInt8) ∉ c) : restorePlus (escapePlus c) = c := by
  unfold escapePlus
  split
  · rfl
  · unfold restorePlus
    split
    · exact absurd (List.mem_cons_self ..) h
    · rfl

/-- What is sent never starts with `+`. -/
theorem not_plus_prefix : ¬ lit "+" <+: escapePlus c := by
  unfold escapePlus
  split
  · rintro ⟨t, h⟩
    cases h
  · rename_i hplus
    rintro ⟨t, h⟩
    exact hplus t h.symm

/-- A line of the module is what starts with `AT+` or `+`. -/
theorem isLine_iff {data : CStr} :
    (strncmpEq (lit "AT+") data 3 = true ∨ strncmpEq (lit "+") data 1 = true) ↔
      lit "AT+" <+: data ∨ lit "+" <+: data :=
  or_congr (strncmpEq_length (by decide)) (strncmpEq_length (by decide))

theorem at_prefix_escapePlus : lit "AT+" <+: escapePlus c ↔ lit "AT+" <+: c := by
  unfold escapePlus
  split
  · constructor
    · rintro ⟨t, h⟩
      cases h
    · rintro ⟨t, h⟩
      cases h
  · rfl

theorem zero_notMem_escapePlus (h : (0 : UInt8) ∉ c) : (0 : UInt8) ∉ escapePlus c := by
  unfold escapePlus
  split
  · exact fun hmem => h (List.mem_cons_of_mem _ ((List.mem_cons.1 hmem).resolve_left (by decide)))
  · exact h

/-- A turn that reads and takes what it read for a message. -/
theorem echoTurn_message (hdata : s.data ≠ lit "PNG") (hwifi : s.wifiConnected = true)
    (hne : received ≠ [])
    (hline : ¬ (lit "AT+" <+: cstr received ∨ lit "+" <+: cstr received)) :
    (echoTurn W atCmd message received).run s =
      (message (restorePlus (cstr received))).run { s with data := restorePlus (cstr received) } := by
  rw [echoTurn, run_get_bind, if_neg hdata, if_pos ⟨hwifi, hne⟩]
  dsimp only
  rw [if_neg (isLine_iff.not.2 hline)]
  rfl

/-- A turn that reads and takes what it read for a line. -/
theorem echoTurn_line (hdata : s.data ≠ lit "PNG") (hwifi : s.wifiConnected = true)
    (hne : received ≠ []) (hline : lit "AT+" <+: cstr received ∨ lit "+" <+: cstr received) :
    (echoTurn W atCmd message received).run s =
      (atCmd (cstr received)).run { s with data := cstr received } := by
  rw [echoTurn, run_get_bind, if_neg hdata, if_pos ⟨hwifi, hne⟩]
  dsimp only
  rw [if_pos (isLine_iff.2 hline)]
  rfl

/-- **The escape is transparent** exactly for the texts that do not start
with `AT+`, and that are read in one piece. -/
theorem transparent_iff (h : Base64Text c) :
    Transparent W c ↔ ¬ lit "AT+" <+: c ∧ c.length < bufSize := by
  have hreads : uartRead (escapePlus c) ≠ [] := by
    intro hnil
    have hlen := congrArg List.length hnil
    rw [uartRead, List.length_take, length_escapePlus, List.length_nil, bufSize] at hlen
    exact h.ne_nil (List.length_eq_zero_iff.1 (by omega))
  constructor
  · intro ht
    -- a line fails, and so does a message that is not `c`
    have hrun := ht (fun _ => Prog.fail .abort) (fun d => faultIf (d ≠ c) .abort)
      { Sys.initial with wifiConnected := true } (by decide) rfl
    rw [run_faultIf_of_not (not_not.2 rfl)] at hrun
    by_cases hline : lit "AT+" <+: cstr (uartRead (escapePlus c)) ∨
        lit "+" <+: cstr (uartRead (escapePlus c))
    · rw [echoTurn_line (by decide) rfl hreads hline] at hrun
      cases hrun
    · rw [echoTurn_message (by decide) rfl hreads hline] at hrun
      have hc := not_not.1 (faultIf_ok.1 hrun).1
      refine ⟨fun hat => hline (.inl ?_), ?_⟩
      · obtain ⟨t, ht⟩ := at_prefix_escapePlus.2 hat
        rw [← ht, uartRead, bufSize]
        change lit "AT+" <+: cstr (lit "AT+" ++ t.take 508)
        rw [cstr_append (by decide)]
        exact List.prefix_append _ _
      · have hlen : (cstr (uartRead (escapePlus c))).length ≤ bufSize - 1 :=
          (List.takeWhile_sublist _).length_le.trans (List.length_take_le ..)
        rw [← hc, length_restorePlus]
        exact Nat.lt_of_le_sub_one (by decide) hlen
  · rintro ⟨hat, hlen⟩
    have hnul : (0 : UInt8) ∉ escapePlus c :=
      zero_notMem_escapePlus (h.notMem (by decide) (by decide))
    have hwire : uartRead (escapePlus c) = escapePlus c :=
      List.take_of_length_le (by rw [length_escapePlus]; exact Nat.le_sub_one_of_lt hlen)
    intro atCmd message s hdata hwifi
    rw [hwire] at hreads ⊢
    rw [echoTurn_message hdata hwifi hreads, cstr_eq_self hnul,
      restorePlus_escapePlus (h.notMem (by decide) (by decide))]
    rw [cstr_eq_self hnul]
    exact fun hline => hline.elim (fun h => hat (at_prefix_escapePlus.1 h)) not_plus_prefix

/-- A text that starts with `+` goes through. -/
theorem transparent_plus : Transparent (World.still .esp32s2 100) (lit "+AAA BBBB") := by
  have hwords : Base64Text (lit "+AAA BBBB") :=
    .inr ⟨lit "+AAA", lit "BBBB", base64Word_of_all (by decide) (by decide),
      base64Word_of_all (by decide) (by decide), rfl⟩
  exact (transparent_iff hwords).2 ⟨by decide, by decide⟩

/-- A message of a session, with the block and the IV its first characters
leave. -/
def commandLike : CStr := lit "AT+AAAAAAAAAAAAAAAAAAA== AAAAAAAAAAAAAAAAAAAAAA=="

/-- **A message that starts with `AT+` is taken for a line.** -/
theorem not_always_transparent :
    ¬ ∀ (W : World) (c : CStr), Base64Text c → Transparent W c := by
  intro h
  have htext : Base64Text commandLike :=
    .inr ⟨lit "AT+AAAAAAAAAAAAAAAAAAA==", lit "AAAAAAAAAAAAAAAAAAAAAA==",
      base64Word_of_all (by decide) (by decide), base64Word_of_all (by decide) (by decide), rfl⟩
  have hrun := h (World.still .esp32s2 100) commandLike htext (fun _ => Prog.fail .abort)
    (fun _ => pure ()) { Sys.initial with wifiConnected := true } (by decide) rfl
  have hreturns := congrArg Prod.fst hrun
  revert hreturns
  decide

end SmartLock
