import SmartLock.Crypto.RoundTrip
import SmartLock.Transport.Fragment
import Mathlib.Algebra.BigOperators.Group.List.Basic
import Mathlib.Algebra.Order.BigOperators.Group.List

/-!
# A reply sent over TCP

The loop of `send` takes the result of every call from `to_write`, and so
counts a failure as a byte less than none. `Balance` is what it keeps
whatever the calls return: what is left to write and the results make up
the length. A loop that ends has therefore passed on a byte more than the
reply for every call that failed, and delivers the reply exactly where none
does.
-/

namespace SmartLock

open Prog

/-! ## What delivers -/

/-- How much a sender has left before a call that goes by the bytes taken. -/
def Socket.remaining (S : Socket) (len : ℕ) : ℕ → ℕ
  | 0 => len
  | k + 1 => S.remaining len k - (S.send k (S.remaining len k)).toNat

/-- The socket fails no call such a sender makes. -/
def Socket.Healthy (S : Socket) (len : ℕ) : Prop :=
  ∀ k, 0 < S.remaining len k → S.send k (S.remaining len k) ≠ -1

/-- The loop delivers a reply: it passes `send` ranges of the reply only,
the bytes taken are the reply as far as they go, it ends, and where no call
has failed the whole reply was taken. -/
structure Delivers (S : Socket) (outside : Int → UInt8) (reply : CStr) : Prop where
  inside : ∀ st, (sendLoop S (replyLen reply)).Reach (sendStart (replyLen reply)) st →
    ∀ c ∈ st.calls, 0 ≤ c.offset ∧ c.offset + c.size ≤ reply.length
  accepted : ∀ st, (sendLoop S (replyLen reply)).Reach (sendStart (replyLen reply)) st →
    st.accepted (blockAt reply outside) <+: reply
  ends : ∃ st, (sendLoop S (replyLen reply)).Ends (sendStart (replyLen reply)) st
  whole : ∀ st, (sendLoop S (replyLen reply)).Ends (sendStart (replyLen reply)) st →
    (∀ c ∈ st.calls, c.written ≠ -1) → st.accepted (blockAt reply outside) = reply

/-! ## One turn -/

variable {S : Socket} {outside : Int → UInt8} {reply : CStr} {len : Int} {st st' : Sending}

theorem subInt_eq_some {a b c : Int} :
    subInt a b = some c ↔ c = a - b ∧ longMin ≤ c ∧ c ≤ longMax := by
  unfold subInt
  constructor
  · intro h
    split at h
    · rename_i hb
      cases h
      exact ⟨rfl, hb⟩
    · cases h
  · rintro ⟨rfl, hb⟩
    rw [if_pos hb]

/-- **What one turn of the loop does**: a call is made and its result taken
from what is left. -/
theorem sendLoop_turn :
    (sendLoop S len).Turn st st' ↔ 0 < st.toWrite ∧
      st'.toWrite = st.toWrite - S.send st.calls.length st.toWrite.toNat ∧
      longMin ≤ st'.toWrite ∧ st'.toWrite ≤ longMax ∧
      st'.calls = st.calls ++ [⟨len - st.toWrite, st.toWrite,
        S.send st.calls.length st.toWrite.toNat⟩] := by
  constructor
  · rintro ⟨hcond, hbody⟩
    obtain ⟨toWrite, hsub, hret⟩ := Option.bind_eq_some_iff.1 hbody
    obtain ⟨rfl, hlow, hhigh⟩ := subInt_eq_some.1 hsub
    cases hret
    exact ⟨of_decide_eq_true hcond, rfl, hlow, hhigh, rfl⟩
  · rintro ⟨hpos, hnext, hlow, hhigh, hcalls⟩
    refine ⟨decide_eq_true hpos, Option.bind_eq_some_iff.2 ⟨st'.toWrite, ?_, ?_⟩⟩
    · exact subInt_eq_some.2 ⟨hnext, hlow, hhigh⟩
    · obtain ⟨toWrite, calls⟩ := st'
      exact congrArg some (congrArg (Sending.mk toWrite) hcalls.symm)

/-- The result of a call is an error, or some of the bytes it was passed. -/
theorem send_result (hpos : 0 < st.toWrite) (k : ℕ) :
    S.send k st.toWrite.toNat = -1 ∨
      1 ≤ S.send k st.toWrite.toNat ∧ S.send k st.toWrite.toNat ≤ st.toWrite := by
  have hspec := S.send_spec k st.toWrite.toNat (by omega)
  omega

/-! ## Whatever the calls return -/

/-- What is left to write, and the results of the calls, make up the
length. -/
structure Balance (len : Int) (st : Sending) : Prop where
  nonneg : 0 ≤ st.toWrite
  results : ∀ z ∈ st.calls.map SendCall.written, z = -1 ∨ 1 ≤ z
  balance : st.toWrite + (st.calls.map SendCall.written).sum = len

theorem Balance.start (h : 0 ≤ len) : Balance len (sendStart len) where
  nonneg := h
  results := by simp [sendStart]
  balance := by simp [sendStart]

/-- **Every turn keeps the balance.** -/
theorem Balance.turn (h : Balance len st) (hturn : (sendLoop S len).Turn st st') :
    Balance len st' := by
  obtain ⟨hnonneg, hresults, hbalance⟩ := h
  obtain ⟨hpos, hnext, -, -, hcalls⟩ := sendLoop_turn.1 hturn
  have hresult := send_result (S := S) hpos st.calls.length
  refine ⟨by omega, fun z hz => ?_, ?_⟩
  · simp only [hcalls, List.map_append, List.mem_append, List.map_cons, List.map_nil,
      List.mem_singleton] at hz
    rcases hz with hz | rfl
    · exact hresults z hz
    · omega
  · simp only [hcalls, List.map_append, List.sum_append, List.map_cons, List.map_nil,
      List.sum_singleton]
    omega

/-- The positive parts of results are the results, and one for each
failure. -/
theorem sum_toNat_results : ∀ {l : List Int}, (∀ z ∈ l, z = -1 ∨ 1 ≤ z) →
    ((l.map Int.toNat).sum : Int) = l.sum + l.count (-1) := by
  intro l
  induction l with
  | nil => intro _; simp
  | cons z l ih =>
    intro h
    have hz := h z (List.mem_cons_self ..)
    have hl := ih fun z hz => h z (List.mem_cons_of_mem _ hz)
    rw [List.map_cons, List.sum_cons, List.sum_cons, List.count_cons]
    push_cast at hl ⊢
    rw [hl]
    rcases hz with rfl | hz
    · simp
      omega
    · rw [if_neg (by simp; omega)]
      omega

/-- As many bytes were taken as the results say. -/
theorem length_accepted (memory : Int → UInt8) (st : Sending) :
    (st.accepted memory).length = ((st.calls.map SendCall.written).map Int.toNat).sum := by
  simp [Sending.accepted, SendCall.accepted, List.length_flatMap, Function.comp_def]

/-- **A loop that ends took a byte too many for every failure**, and so, if
what it took is no more than the reply, there was none. -/
theorem Balance.no_failure (h : Balance reply.length st) (hend : ¬ 0 < st.toWrite)
    (hpre : st.accepted (blockAt reply outside) <+: reply) :
    ∀ c ∈ st.calls, c.written ≠ -1 := by
  have hlen := hpre.length_le
  have hsum := sum_toNat_results h.results
  have hbalance := h.balance
  have hnonneg := h.nonneg
  rw [length_accepted] at hlen
  have hcount : (st.calls.map SendCall.written).count (-1) = 0 := by omega
  intro c hc heq
  exact List.count_eq_zero.1 hcount (heq ▸ List.mem_map_of_mem hc)

/-- The loop ends by a call that takes bytes: if from some call on all
fail, it has ended by then or never does. -/
theorem ends_before_failures {K : ℕ} (hfail : ∀ k n, K ≤ k → S.send k n = -1)
    (h : (sendLoop S len).Ends (sendStart len) st) : st.calls.length ≤ K := by
  have hend : ¬ 0 < st.toWrite := of_decide_eq_false h.2
  rcases Relation.ReflTransGen.cases_tail h.1 with heq | ⟨before, _, hturn⟩
  · rw [heq]
    exact Nat.zero_le K
  · obtain ⟨hpos, hnext, -, -, hcalls⟩ := sendLoop_turn.1 hturn
    rw [hcalls, List.length_append, List.length_singleton]
    by_contra hlate
    -- the last call fails, and leaves a byte more to write
    rw [hfail before.calls.length _ (by omega)] at hnext
    omega

/-! ## Where no call fails -/

theorem Socket.remaining_succ_le (S : Socket) (len k : ℕ) :
    S.remaining len (k + 1) ≤ S.remaining len k := Nat.sub_le _ _

theorem Socket.remaining_eq_zero {S : Socket} {len k j : ℕ} (h : S.remaining len k = 0)
    (hle : k ≤ j) : S.remaining len j = 0 := by
  induction hle with
  | refl => exact h
  | @step j _ ih =>
    have hless : S.remaining len j.succ ≤ S.remaining len j := S.remaining_succ_le len j
    omega

/-- The loop goes by the bytes taken, as long as no call has failed. -/
structure Sound (S : Socket) (len : ℕ) (st : Sending) : Prop where
  left : st.toWrite = S.remaining len st.calls.length
  healthy : ∀ k < st.calls.length, S.send k (S.remaining len k) ≠ -1

theorem Sound.start (len : ℕ) : Sound S len (sendStart len) where
  left := rfl
  healthy := fun _ hk => absurd hk (Nat.not_lt_zero _)

/-- A turn whose call does not fail. -/
theorem Sound.turn {len : ℕ} (h : Sound S len st) (hturn : (sendLoop S len).Turn st st')
    (hok : S.send st.calls.length st.toWrite.toNat ≠ -1) : Sound S len st' := by
  obtain ⟨hleft, hhealthy⟩ := h
  obtain ⟨hpos, hnext, -, -, hcalls⟩ := sendLoop_turn.1 hturn
  have hresult := send_result (S := S) hpos st.calls.length
  have hnat : st.toWrite.toNat = S.remaining len st.calls.length := by omega
  have hlength : st'.calls.length = st.calls.length + 1 := by simp [hcalls]
  rw [hnat] at hnext hok hresult
  refine ⟨?_, fun k hk => ?_⟩
  · rw [hlength, Socket.remaining, hnext]
    omega
  · rcases Nat.lt_or_ge k st.calls.length with hlt | hge
    · exact hhealthy k hlt
    · rw [show k = st.calls.length by omega]
      exact hok

/-- Along a run without a failure the loop goes by the bytes taken. -/
theorem sound_of_no_failure {len : ℕ}
    (hreach : (sendLoop S len).Reach (sendStart len) st)
    (hok : ∀ c ∈ st.calls, c.written ≠ -1) : Sound S len st := by
  refine hreach.keeps (I := fun st => (∀ c ∈ st.calls, c.written ≠ -1) → Sound S len st)
    (fun st st' hst hturn hok => ?_) (fun _ => .start len) hok
  obtain ⟨-, -, -, -, hcalls⟩ := sendLoop_turn.1 hturn
  have hlast : ∀ c ∈ st.calls ++ [_], c.written ≠ -1 := hcalls ▸ hok
  exact (hst fun c hc => hlast c (List.mem_append_left _ hc)).turn hturn
    (hlast _ (List.mem_append_right _ (List.mem_singleton_self _)))

/-- With a socket that fails no call: every range passed is of the reply,
and the bytes taken are the reply up to what is left. -/
structure Exact (S : Socket) (outside : Int → UInt8) (reply : CStr) (st : Sending) : Prop where
  left : st.toWrite = S.remaining reply.length st.calls.length
  below : st.toWrite ≤ reply.length
  inside : ∀ c ∈ st.calls, 0 ≤ c.offset ∧ c.offset + c.size ≤ reply.length
  accepted : st.accepted (blockAt reply outside) = reply.take (reply.length - st.toWrite.toNat)

theorem Exact.start : Exact S outside reply (sendStart reply.length) where
  left := rfl
  below := le_refl _
  inside := by simp [sendStart]
  accepted := by simp [sendStart, Sending.accepted]

/-- What a call that takes bytes adds to the bytes taken. -/
theorem take_accepted (outside : Int → UInt8) {n w : ℕ} (hn : n ≤ reply.length) (hw : w ≤ n) :
    reply.take (reply.length - n) ++
        readAt (blockAt reply outside) (reply.length - n : Int) w =
      reply.take (reply.length - (n - w)) := by
  have hcast : (reply.length - n : Int) = (reply.length - n : ℕ) := by omega
  have hsum : reply.length - (n - w) = (reply.length - n) + w := by omega
  rw [hcast, readAt_blockAt (by omega), hsum, List.take_add]

/-- **Every turn of a healthy socket is exact.** -/
theorem Exact.turn (hS : S.Healthy reply.length) (h : Exact S outside reply st)
    (hturn : (sendLoop S reply.length).Turn st st') : Exact S outside reply st' := by
  obtain ⟨hleft, hbelow, hinside, haccepted⟩ := h
  obtain ⟨hpos, hnext, -, -, hcalls⟩ := sendLoop_turn.1 hturn
  have hresult := send_result (S := S) hpos st.calls.length
  have hnat : st.toWrite.toNat = S.remaining reply.length st.calls.length := by omega
  have hlength : st'.calls.length = st.calls.length + 1 := by simp [hcalls]
  -- the call takes some of what it is passed
  have hok : S.send st.calls.length st.toWrite.toNat ≠ -1 := by
    rw [hnat]
    exact hS st.calls.length (by omega)
  refine ⟨?_, by omega, fun c hc => ?_, ?_⟩
  · rw [hlength, Socket.remaining, ← hnat, hnext]
    omega
  · rw [hcalls, List.mem_append, List.mem_singleton] at hc
    rcases hc with hc | rfl
    · exact hinside c hc
    · simp only
      omega
  · have hcast : (reply.length : Int) - st.toWrite = (reply.length - st.toWrite.toNat : Int) := by
      omega
    have hrest : st'.toWrite.toNat =
        st.toWrite.toNat - (S.send st.calls.length st.toWrite.toNat).toNat := by omega
    rw [hrest, ← take_accepted outside (by omega) (by omega), ← haccepted, ← hcast]
    simp [Sending.accepted, SendCall.accepted, hcalls]

/-- **With a healthy socket the loop ends.** -/
theorem Exact.ends (hS : S.Healthy reply.length) (hlen : (reply.length : Int) ≤ longMax) :
    ∃ st, (sendLoop S reply.length).Ends (sendStart reply.length) st := by
  have hvariant (st : Sending) (h : Exact S (fun _ => 0) reply st)
      (hcond : (sendLoop S reply.length).cond st = true) :
      ∃ st', (sendLoop S reply.length).body st = some st' ∧ Exact S (fun _ => 0) reply st' ∧
        st'.toWrite.toNat < st.toWrite.toNat := by
    have hpos : 0 < st.toWrite := of_decide_eq_true hcond
    have hresult := send_result (S := S) hpos st.calls.length
    have hleft := h.left
    have hbelow := h.below
    have hok : S.send st.calls.length st.toWrite.toNat ≠ -1 := by
      rw [show st.toWrite.toNat = S.remaining reply.length st.calls.length by omega]
      exact hS st.calls.length (by omega)
    have hturn : (sendLoop S reply.length).Turn st
        ⟨st.toWrite - S.send st.calls.length st.toWrite.toNat, _⟩ :=
      sendLoop_turn.2 ⟨hpos, rfl, by simp only [longMin]; omega, by simp only; omega, rfl⟩
    exact ⟨_, hturn.2, h.turn hS hturn, by simp only; omega⟩
  obtain ⟨st, hends, -⟩ := Loop.ends_of_variant _ hvariant _ .start
  exact ⟨st, hends⟩

/-! ## Every socket -/

theorem replyLen_of_le (h : (reply.length : Int) ≤ longMax) : replyLen reply = reply.length :=
  wrap32_of_bounds (by simp only [longMin]; omega) h

theorem replyLen_neg (h : reply.length ≤ sizeMax) (hlong : longMax < reply.length) :
    replyLen reply < 0 := by
  simp only [replyLen, wrap32, sizeMax, longMax] at *
  omega

/-- A reply too long for an `int` is not sent at all. -/
theorem not_delivers_of_long (h : reply.length ≤ sizeMax) (hlong : longMax < reply.length) :
    ¬ Delivers S outside reply := by
  rintro ⟨-, -, -, hwhole⟩
  have hneg := replyLen_neg h hlong
  have hstop : (sendLoop S (replyLen reply)).cond (sendStart (replyLen reply)) = false := by
    simp only [sendLoop, sendStart, decide_eq_false_iff_not]
    omega
  -- no call is made, and none fails
  have hnone := hwhole _ (.here hstop) (by simp [sendStart])
  have hempty : reply.length = 0 := by
    rw [← hnone, length_accepted]
    simp [sendStart]
  simp only [longMax] at hlong
  omega

/-- A reply whose length an `int` holds is delivered exactly by the sockets
that fail no call. -/
theorem delivers_iff_healthy (hlen : (reply.length : Int) ≤ longMax) :
    Delivers S outside reply ↔ S.Healthy reply.length := by
  constructor
  · rintro ⟨-, haccepted, ⟨st, hends⟩, -⟩ k hk
    rw [replyLen_of_le hlen] at hends haccepted
    have hend : ¬ 0 < st.toWrite := of_decide_eq_false hends.2
    have hbalance : Balance reply.length st := hends.1.keeps (fun _ _ => Balance.turn)
      (.start (by omega))
    have hok := hbalance.no_failure hend (haccepted st hends.1)
    have hsound := sound_of_no_failure hends.1 hok
    have hzero : S.remaining reply.length st.calls.length = 0 := by
      have hleft := hsound.left
      omega
    rcases Nat.lt_or_ge k st.calls.length with hlt | hge
    · exact hsound.healthy k hlt
    · exact absurd (Socket.remaining_eq_zero hzero hge) (by omega)
  · intro hS
    have hexact (st : Sending)
        (hreach : (sendLoop S reply.length).Reach (sendStart reply.length) st) :
        Exact S outside reply st := hreach.keeps (fun _ _ hst hturn => hst.turn hS hturn) .start
    refine ⟨?_, ?_, ?_, ?_⟩ <;> rw [replyLen_of_le hlen]
    · exact fun st hreach => (hexact st hreach).inside
    · intro st hreach
      rw [(hexact st hreach).accepted]
      exact List.take_prefix _ _
    · exact Exact.ends hS hlen
    · intro st hends _
      have hend : ¬ 0 < st.toWrite := of_decide_eq_false hends.2
      rw [(hexact st hends.1).accepted, List.take_of_length_le (by omega)]

/-- **The loop delivers a reply exactly if an `int` holds its length and
the socket fails no call** of a sender that counts what was taken. -/
theorem delivers_iff (S : Socket) (outside : Int → UInt8) (reply : CStr)
    (h : reply.length ≤ sizeMax) :
    Delivers S outside reply ↔ (reply.length : Int) ≤ longMax ∧ S.Healthy reply.length := by
  rcases Int.lt_or_le longMax reply.length with hlong | hlen
  · have hnot : ¬ Delivers S outside reply := not_delivers_of_long h hlong
    exact ⟨fun hd => absurd hd hnot, fun hd => absurd hd.1 (by omega)⟩
  · rw [delivers_iff_healthy hlen]
    exact ⟨fun hS => ⟨hlen, hS⟩, And.right⟩

/-- A socket whose first call fails. -/
def failsOnce : Socket where
  send k n := if k = 0 then -1 else n
  send_spec k n hn := by
    by_cases hk : k = 0
    · rw [if_pos hk]
      exact Or.inl rfl
    · rw [if_neg hk]
      omega

/-- A reply of one byte, behind a failed call: two bytes are taken, the
first from in front of the reply. -/
theorem not_always_delivers : ¬ ∀ (S : Socket) (outside : Int → UInt8) (reply : CStr),
    0 < reply.length → Delivers S outside reply := by
  intro hall
  obtain ⟨-, haccepted, -, -⟩ := hall failsOnce (fun _ => 0) [65] (Nat.succ_pos 0)
  have hends : (sendLoop failsOnce (replyLen [65])).Ends (sendStart (replyLen [65]))
      ⟨0, [⟨0, 1, -1⟩, ⟨-1, 2, 2⟩]⟩ := Loop.ends_iff_run.2 ⟨3, rfl⟩
  have hlen := (haccepted _ hends.1).length_le
  rw [length_accepted] at hlen
  exact absurd hlen (by decide)

/-- A socket that takes two bytes at a time. -/
def takesTwo : Socket where
  send _ n := min 2 n
  send_spec _ n hn := by omega

/-- A reply of five bytes, taken in three parts. -/
theorem delivers_inParts : Delivers takesTwo (fun _ => 0) (lit "ACK 1") ∧
    (sendLoop takesTwo 5).Ends (sendStart 5) ⟨0, [⟨0, 5, 2⟩, ⟨2, 3, 2⟩, ⟨4, 1, 1⟩]⟩ := by
  refine ⟨(delivers_iff _ _ _ (by decide)).2 ⟨by decide, fun k hk heq => ?_⟩,
    Loop.ends_iff_run.2 ⟨4, rfl⟩⟩
  simp only [takesTwo] at heq
  omega

/-! ## The replies of the server -/

variable {W : World} {aes : AESContext} {response : Option CStr} {text : CStr} {s s' : Sys}

/-- The text `encrypt_str_AES` writes is two base64 words. -/
theorem encryptStrAES_eq_envelope {p : CStr} (h : (encryptStrAES W aes p).run s = (.ok text, s')) :
    ∃ data iv, data.length < sizeMax / 4 ∧ text = envelope data iv := by
  have hlen := encryptStrAES_ok h
  obtain ⟨_, iv, t, hrun, rfl, -⟩ := encryptStrAES_run (W := W) aes s hlen
  rw [hrun] at h
  cases h
  exact ⟨_, iv, by rwa [W.aesEncrypt_length], rfl⟩

/-- An `int` holds the length of every reply that was encrypted. -/
theorem sealResponse_length (h : (sealResponse W aes response).run s = (.ok text, s')) :
    (text.length : Int) ≤ longMax := by
  obtain ⟨responseTs, s₁, -, hencrypt⟩ := bind_ok.1 h
  obtain ⟨data, iv, hdata, rfl⟩ := encryptStrAES_eq_envelope hencrypt
  have hiv : iv.toList.length = 16 := by simp
  simp only [envelope, List.length_append, length_encodeBlocks, hiv, lit, List.length_map]
  simp only [sizeMax, longMax] at *
  have hspace : " ".toList.length = 1 := rfl
  omega

/-- **What the server seals is delivered** exactly by the sockets that fail
no call. -/
theorem sealResponse_delivers_iff (h : (sealResponse W aes response).run s = (.ok text, s')) :
    Delivers S outside text ↔ S.Healthy text.length :=
  delivers_iff_healthy (sealResponse_length h)

end SmartLock
