import SmartLock.Model.Transmit
import SmartLock.Model.BleS3Server

/-!
# A reply cut into packets

The fragments `send_data_ble_s3` makes of a text, for every length its
8-bit counter can finish: they are the text, cut into packets. `Cut` is the
invariant of the loop, read at `currentNum`: the fragments before that
number are the text up to it. The ranges of memory are spoken of as numbers
first, the widths of the counters being settled by `totalNum_bounds` and
`fragCopy_eq`.
-/

namespace SmartLock

/-! ## Memory -/

@[simp] theorem length_readAt (memory : Int → UInt8) (offset : Int) (n : ℕ) :
    (readAt memory offset n).length = n := by
  simp [readAt]

theorem getElem_readAt {memory : Int → UInt8} {offset : Int} {n i : ℕ}
    (h : i < (readAt memory offset n).length) :
    (readAt memory offset n)[i] = memory (offset + i) := by
  simp [readAt]

/-- A read inside a block gives its bytes. -/
theorem readAt_blockAt {bytes : List UInt8} {outside : Int → UInt8} {offset n : ℕ}
    (h : offset + n ≤ bytes.length) :
    readAt (blockAt bytes outside) offset n = (bytes.drop offset).take n := by
  refine List.ext_getElem ?_ fun i hi _ => ?_
  · simp only [length_readAt, List.length_take, List.length_drop]
    omega
  · rw [length_readAt] at hi
    have hindex : ((offset : Int) + (i : Int)).toNat = offset + i := by omega
    rw [getElem_readAt, blockAt, if_neg (by omega), hindex, List.getElem_take, List.getElem_drop,
      List.getD_eq_getElem?_getD, List.getElem?_eq_getElem (by omega), Option.getD_some]

theorem toSize_natCast {n : ℕ} (h : n < 2 ^ 32) : toSize n = n := by
  unfold toSize
  omega

/-- A payload of a length that 16 bits measure is what was put in the
buffer. -/
theorem indicated_append {outside : Int → UInt8} {front back : List UInt8}
    (h : front.length < 2 ^ 16) :
    indicated (blockAt (front ++ back) outside) front.length = front := by
  have hread : readAt (blockAt (front ++ back) outside) (0 : ℕ) front.length =
      ((front ++ back).drop 0).take front.length := readAt_blockAt (by simp)
  rw [indicated, UInt16.toNat_ofNat', Nat.mod_eq_of_lt h]
  simpa using hread

/-! ## The counters -/

variable {mtu : UInt16} {n len : ℕ}

/-- Data of `len` bytes fill more than one packet of `n` bytes, and no more
than the 8-bit counter can finish. -/
structure InPackets (mtu : UInt16) (n len : ℕ) : Prop where
  size : fragSize mtu = n
  pos : 0 < n
  word : n < 2 ^ 16
  many : n < len
  few : len ≤ 254 * n

/-- The 8-bit number of fragments is the number of fragments. -/
theorem totalNum_bounds (h : InPackets mtu n len) :
    1 ≤ (totalNum mtu len).toNat ∧ (totalNum mtu len).toNat ≤ 254 ∧
      ((totalNum mtu len).toNat - 1) * n < len ∧ len ≤ (totalNum mtu len).toNat * n := by
  obtain ⟨hn, hpos, hlt, hmany, hlen⟩ := h
  have hsize : toSize (fragSize mtu) = n := by
    rw [hn, toSize_natCast (by omega)]
  have hdiv : n * (len / n) + len % n = len := Nat.div_add_mod len n
  have hq : 1 ≤ len / n := (Nat.le_div_iff_mul_le hpos).2 (by omega)
  have hmod : len % n < n := Nat.mod_lt len hpos
  obtain ⟨q, hqe⟩ : ∃ q, len / n = q + 1 := ⟨len / n - 1, by omega⟩
  rw [hqe] at hdiv
  simp only [totalNum, hsize, hqe]
  by_cases hz : len % n = 0
  · -- the length is a multiple of the size
    have hscaled : n * (q + 1) ≤ n * 254 := by omega
    have hq254 : q + 1 ≤ 254 := Nat.le_of_mul_le_mul_left hscaled hpos
    rw [if_pos hz, UInt8.toNat_ofNat', Nat.mod_eq_of_lt (by omega)]
    refine ⟨by omega, hq254, ?_, ?_⟩
    · rw [Nat.add_sub_cancel, Nat.mul_comm]
      rw [Nat.mul_succ] at hdiv
      omega
    · rw [Nat.mul_comm]
      omega
  · have hscaled : n * (q + 1) < n * 254 := by omega
    have hq254 : q + 1 < 254 := Nat.lt_of_mul_lt_mul_left hscaled
    rw [if_neg hz, UInt8.toNat_ofNat', Nat.mod_eq_of_lt (by omega)]
    refine ⟨by omega, by omega, ?_, ?_⟩
    · rw [Nat.add_sub_cancel, Nat.mul_comm]
      omega
    · rw [Nat.mul_comm, Nat.mul_succ]
      omega

/-- **Every fragment copies what is left, at most a packet of it.** -/
theorem fragCopy_eq (h : InPackets mtu n len) {currentNum : UInt8}
    (hone : 1 ≤ currentNum.toNat) (hle : currentNum.toNat ≤ (totalNum mtu len).toNat) :
    fragCopy mtu len currentNum =
      ⟨((currentNum.toNat - 1) * n : ℕ), min n (len - (currentNum.toNat - 1) * n)⟩ ∧
    (currentNum.toNat - 1) * n < len := by
  obtain ⟨htot, -, hbelow, habove⟩ := totalNum_bounds h
  obtain ⟨hn, hpos, hlt, hmany, hlen⟩ := h
  have hoffset : fragOffset mtu currentNum = ((currentNum.toNat - 1) * n : ℕ) := by
    unfold fragOffset
    rw [hn]
    push_cast [Nat.cast_sub hone]
    rfl
  have hmono : (currentNum.toNat - 1) * n ≤ ((totalNum mtu len).toNat - 1) * n :=
    Nat.mul_le_mul_right n (by omega)
  refine ⟨?_, by omega⟩
  rw [fragCopy, hoffset]
  by_cases hc : currentNum < totalNum mtu len
  · -- a fragment before the last is a whole packet
    rw [UInt8.lt_iff_toNat_lt] at hc
    have hwhole : currentNum.toNat * n ≤ ((totalNum mtu len).toNat - 1) * n :=
      Nat.mul_le_mul_right n (by omega)
    have hsplit : currentNum.toNat * n = (currentNum.toNat - 1) * n + n := by
      rw [← Nat.succ_mul, Nat.succ_eq_add_one, Nat.sub_add_cancel hone]
    rw [if_pos (UInt8.lt_iff_toNat_lt.2 hc), hn, toSize_natCast (by omega),
      Nat.min_eq_left (by omega)]
  · rw [UInt8.lt_iff_toNat_lt] at hc
    have hlast : currentNum.toNat = (totalNum mtu len).toNat := by omega
    have hrest : len ≤ (currentNum.toNat - 1) * n + n := by
      rw [← Nat.succ_mul, Nat.succ_eq_add_one, Nat.sub_add_cancel hone, hlast]
      exact habove
    have hcast : (len : Int) - ((currentNum.toNat - 1) * n : ℕ) =
        (len - (currentNum.toNat - 1) * n : ℕ) := by omega
    rw [if_neg (fun h => hc (UInt8.lt_iff_toNat_lt.1 h)), hcast, toSize_natCast (by omega),
      Nat.min_eq_right (by omega)]

/-! ## The loop -/

variable {outside : Int → UInt8} {text : CStr}

/-- Before the fragment of a number: the fragments so far are the text up
to it, each fits a packet, and each was copied from the text. -/
structure Cut (n : ℕ) (text : CStr) (st : Fragmenting) : Prop where
  numbered : 1 ≤ st.currentNum.toNat
  payloads : st.payloads.flatten = text.take ((st.currentNum.toNat - 1) * n)
  sizes : ∀ p ∈ st.payloads, 1 ≤ p.length ∧ p.length ≤ n
  copies : ∀ c ∈ st.copies, 0 ≤ c.offset ∧ c.offset + c.size ≤ text.length ∧ c.size ≤ n

theorem Cut.start : Cut n text (fragStart outside mtu) where
  numbered := Nat.le_refl 1
  payloads := by simp [fragStart]
  sizes := by simp [fragStart]
  copies := by simp [fragStart]

/-- **One fragment more.** -/
theorem Cut.turn (h : InPackets mtu n text.length) {st : Fragmenting} (hcut : Cut n text st)
    (hcond : (fragLoop outside mtu text).cond st = true) :
    ∃ st', (fragLoop outside mtu text).body st = some st' ∧ Cut n text st' ∧
      st'.currentNum.toNat = st.currentNum.toNat + 1 := by
  obtain ⟨hnum, hpay, hsizes, hcopies⟩ := hcut
  have hle : st.currentNum.toNat ≤ (totalNum mtu text.length).toNat :=
    UInt8.le_iff_toNat_le.1 (of_decide_eq_true hcond)
  obtain ⟨-, h254, -, -⟩ := totalNum_bounds h
  obtain ⟨hcopy, hbelow⟩ := fragCopy_eq h hnum hle
  have hnext : (st.currentNum + 1).toNat = st.currentNum.toNat + 1 := by
    rw [UInt8.toNat_add, UInt8.toNat_one]
    omega
  set offset := (st.currentNum.toNat - 1) * n with hoffset
  set size := min n (text.length - offset) with hsize
  have hpos := h.pos
  have hword := h.word
  -- the part of the text that is copied
  have hread : readAt (blockAt text outside) (offset : ℕ) size = (text.drop offset).take size :=
    readAt_blockAt (by omega)
  have hfront : ((text.drop offset).take size).length = size := by
    rw [List.length_take, List.length_drop]
    omega
  have hindicated (back : List UInt8) :
      indicated (blockAt ((text.drop offset).take size ++ back) outside) size =
        (text.drop offset).take size := by
    have hall : indicated (blockAt ((text.drop offset).take size ++ back) outside)
        ((text.drop offset).take size).length = (text.drop offset).take size :=
      indicated_append (by omega)
    rwa [hfront] at hall
  refine ⟨_, rfl, ⟨?_, ?_, ?_, ?_⟩, hnext⟩
  · simp only [hnext]
    omega
  · have hend : (st.currentNum.toNat + 1 - 1) * n = offset + n := by
      rw [hoffset, ← Nat.succ_mul, Nat.succ_eq_add_one]
      congr 1
      omega
    simp only [hcopy, hread, hindicated, hnext, hend, List.flatten_append, hpay,
      List.flatten_singleton, List.take_add]
    rw [List.append_cancel_left_eq, List.take_eq_take_iff, List.length_drop]
    omega
  · intro p hp
    simp only [hcopy, hread, hindicated, List.mem_append, List.mem_singleton] at hp
    rcases hp with hp | rfl
    · exact hsizes p hp
    · rw [hfront]
      omega
  · intro c hc
    simp only [hcopy, List.mem_append, List.mem_singleton] at hc
    rcases hc with hc | rfl
    · exact hcopies c hc
    · refine ⟨by simp, ?_, Nat.min_le_left _ _⟩
      push_cast
      omega

/-- **The loop ends**, behind the last fragment. -/
theorem fragLoop_ends (outside : Int → UInt8) (h : InPackets mtu n text.length) :
    ∃ st, (fragLoop outside mtu text).Ends (fragStart outside mtu) st ∧ Cut n text st := by
  refine Loop.ends_of_variant (fun st => 256 - st.currentNum.toNat) (fun st hcut hcond => ?_) _
    Cut.start
  obtain ⟨st', hbody, hcut', hnext⟩ := hcut.turn h hcond
  have hbyte : st.currentNum.toNat < 256 := st.currentNum.toNat_lt
  exact ⟨st', hbody, hcut', by omega⟩

/-- Where the loop has ended the fragments are the whole text. -/
theorem Cut.whole (h : InPackets mtu n text.length) {st : Fragmenting} (hcut : Cut n text st)
    (hend : (fragLoop outside mtu text).cond st = false) : st.payloads.flatten = text := by
  obtain ⟨-, -, -, habove⟩ := totalNum_bounds h
  have hlt : (totalNum mtu text.length).toNat ≤ st.currentNum.toNat - 1 := by
    have hnot := of_decide_eq_false hend
    rw [UInt8.le_iff_toNat_le] at hnot
    omega
  have hmono : (totalNum mtu text.length).toNat * n ≤ (st.currentNum.toNat - 1) * n :=
    Nat.mul_le_mul_right n hlt
  rw [hcut.payloads, List.take_of_length_le (by omega)]

/-- What `sendDataBleS3` is observed to send while connected. -/
theorem sendDataBleS3_log {allocated : ℕ} {data : CStr} {sent : CStr → Obs} {s s' : Sys}
    (hconn : s.isConnected = true)
    (h : (sendDataBleS3 allocated data sent).run s = (.ok (), s')) :
    s'.log.head? = some (sent (data ++ [4])) := by
  simp only [sendDataBleS3, Prog.run_get_bind, if_pos hconn] at h
  obtain ⟨text, t, hprint, hobs⟩ := Prog.bind_ok.1 h
  obtain ⟨_, t', _, hpure⟩ := Prog.bind_ok.1 hprint
  cases hpure
  cases hobs
  rfl

/-- A transmission carries a text in packets of at most `n` bytes. -/
structure Transmission.Carries (out : Transmission) (text : CStr) (n : ℕ) : Prop where
  whole : out.payloads.flatten = text
  sizes : ∀ p ∈ out.payloads, 1 ≤ p.length ∧ p.length ≤ n
  copies : ∀ c ∈ out.copies, 0 ≤ c.offset ∧ c.offset + c.size ≤ text.length ∧ c.size ≤ n

/-- Enough turns of the loop carry the data and one `EOT`. -/
theorem exists_carries (outside : Int → UInt8) {mtu : UInt16} {data : CStr}
    (hmtu : 23 ≤ mtu.toNat) (hfew : data.length + 1 ≤ 254 * (mtu.toNat - 3)) :
    ∃ enough out, (∀ turns, enough ≤ turns →
        fragmentsBleS3 true outside mtu turns data = some out) ∧
      out.Carries (data ++ [4]) (mtu.toNat - 3) := by
  have hword : mtu.toNat < 2 ^ 16 := mtu.toNat_lt
  have hsize : fragSize mtu = (mtu.toNat - 3 : ℕ) := by
    unfold fragSize
    omega
  have hlen : (data ++ [4]).length = data.length + 1 := by simp
  by_cases hone : data.length + 1 ≤ mtu.toNat - 3
  · -- the text is one packet, sent from where it is
    have hwhole : indicated (blockAt (data ++ [4]) outside) (data ++ [4]).length = data ++ [4] := by
      have hall : indicated (blockAt ((data ++ [4]) ++ []) outside) (data ++ [4]).length =
          data ++ [4] := indicated_append (by omega)
      rwa [List.append_nil] at hall
    refine ⟨0, ⟨[], [data ++ [4]]⟩, fun turns _ => ?_, ⟨by simp, fun p hp => ?_, by simp⟩⟩
    · simp only [fragmentsBleS3, hsize, hwhole]
      rw [if_neg (by simp), if_pos (by rw [toSize_natCast (by omega)]; omega)]
    · rw [List.mem_singleton.1 hp]
      omega
  · have hin : InPackets mtu (mtu.toNat - 3) (data ++ [4]).length :=
      ⟨hsize, by omega, by omega, by omega, by omega⟩
    obtain ⟨st, hends, hcut⟩ := fragLoop_ends outside hin
    obtain ⟨enough, hrun⟩ := Loop.ends_iff_run.1 hends
    refine ⟨enough, ⟨st.copies, st.payloads⟩, fun turns hle => ?_, hcut.whole hin hends.2,
      hcut.sizes, hcut.copies⟩
    simp only [fragmentsBleS3, hsize]
    rw [if_neg (by simp), if_neg (by rw [toSize_natCast (by omega)]; omega),
      Loop.run_mono hrun hle]
    rfl

/-- **Cutting a text into packets loses nothing.** For an MTU the standard
allows and data the 8-bit counter can finish, `send_data_ble_s3` ends; its
payloads are the data and one `EOT`, none is empty or larger than a packet,
and it copies within the text and the buffer. -/
theorem fragmentsBleS3_whole (outside : Int → UInt8) (mtu : UInt16) (data : CStr)
    (hmtu : 23 ≤ mtu.toNat) (hfew : data.length + 1 ≤ 254 * (mtu.toNat - 3)) :
    ∃ enough out, (∀ turns, enough ≤ turns →
        fragmentsBleS3 true outside mtu turns data = some out) ∧
      out.payloads.flatten = data ++ [4] ∧
      (∀ p ∈ out.payloads, 1 ≤ p.length ∧ p.length ≤ mtu.toNat - 3) ∧
      ∀ c ∈ out.copies, 0 ≤ c.offset ∧ c.offset + c.size ≤ data.length + 1 ∧
        c.size ≤ mtu.toNat - 3 := by
  obtain ⟨enough, out, hruns, hcarries⟩ := exists_carries outside hmtu hfew
  refine ⟨enough, out, hruns, hcarries.whole, hcarries.sizes, fun c hc => ?_⟩
  have hcopy := hcarries.copies c hc
  rw [List.length_append, List.length_singleton] at hcopy
  omega

/-- The theorem at the least MTU, for a text of two packets. -/
theorem fragmentsBleS3_whole_two :
    ∃ enough out, (∀ turns, enough ≤ turns →
        fragmentsBleS3 true (fun _ => 0) 23 turns (List.replicate 24 65) = some out) ∧
      out.payloads.flatten = List.replicate 24 65 ++ [4] ∧
      (∀ p ∈ out.payloads, 1 ≤ p.length ∧ p.length ≤ (23 : UInt16).toNat - 3) ∧
      ∀ c ∈ out.copies, 0 ≤ c.offset ∧
        c.offset + c.size ≤ (List.replicate 24 (65 : UInt8)).length + 1 ∧
        c.size ≤ (23 : UInt16).toNat - 3 :=
  fragmentsBleS3_whole (fun _ => 0) 23 (List.replicate 24 65) (by decide) (by decide)

/-- What a connected client is observed to be sent are the payloads it is
sent. -/
theorem sendDataBleS3_in_packets {allocated : ℕ} {data : CStr} {sent : CStr → Obs} {s s' : Sys}
    (outside : Int → UInt8) (mtu : UInt16) (hmtu : 23 ≤ mtu.toNat)
    (hfew : data.length + 1 ≤ 254 * (mtu.toNat - 3)) (hconn : s.isConnected = true)
    (h : (sendDataBleS3 allocated data sent).run s = (.ok (), s')) :
    ∃ turns out, fragmentsBleS3 s.isConnected outside mtu turns data = some out ∧
      s'.log.head? = some (sent out.payloads.flatten) := by
  obtain ⟨enough, out, hruns, hcarries⟩ := exists_carries outside hmtu hfew
  refine ⟨enough, out, ?_, ?_⟩
  · rw [hconn]
    exact hruns enough (Nat.le_refl enough)
  · rw [hcarries.whole]
    exact sendDataBleS3_log hconn h

end SmartLock
