import SmartLock.Common.Loop
import SmartLock.Model.State

/-!
# The loops a reply goes out through

The loop of `send` at the end of a turn of `do_retransmit`, and the
cutting of the data to the size of a packet in `send_data_ble_s3`. The
servers take both as one step; here are the loops themselves, with the
widths of their counters, and with every range of memory they pass on or
copy.
-/

namespace SmartLock

/-! ## Memory -/

/-- The memory around a block: `outside` is what stands before and behind
its bytes. -/
def blockAt (bytes : List UInt8) (outside : Int → UInt8) (i : Int) : UInt8 :=
  if i < 0 then outside i else bytes.getD i.toNat (outside i)

/-- The `n` bytes from an offset. -/
def readAt (memory : Int → UInt8) (offset : Int) (n : ℕ) : List UInt8 :=
  (List.range n).map fun i : ℕ => memory (offset + i)

/-- The difference of two `int`s, `none` where it is not one. -/
def subInt (a b : Int) : Option Int :=
  if longMin ≤ a - b ∧ a - b ≤ longMax then some (a - b) else none

/-- An `int` converted to `size_t`. -/
def toSize (z : Int) : ℕ := (z % 2 ^ 32).toNat

/-! ## The TCP server -/

/-- An accepted socket: what the call of `send` of a number returns when
it is offered `n` bytes, an error or a number of them. -/
structure Socket where
  send : ℕ → ℕ → Int
  send_spec : ∀ k n, 0 < n → send k n = -1 ∨ 1 ≤ send k n ∧ send k n ≤ n

/-- A call of `send`: the range of the reply it is passed, and what it
returned. -/
structure SendCall where
  offset : Int
  size : Int
  written : Int
  deriving DecidableEq, Repr

/-- The variable of the loop of `do_retransmit`, and the calls made. -/
structure Sending where
  toWrite : Int
  calls : List SendCall
  deriving DecidableEq, Repr

/-- `(int)strlen(response_enc)`. -/
def replyLen (responseEnc : CStr) : Int := wrap32 responseEnc.length

/-- `while (to_write > 0)`: an error is logged, and taken from `to_write`
like a number of bytes. -/
def sendLoop (S : Socket) (len : Int) : Loop Sending where
  cond st := 0 < st.toWrite
  body st := do
    let written := S.send st.calls.length st.toWrite.toNat
    let toWrite ← subInt st.toWrite written
    return ⟨toWrite, st.calls ++ [⟨len - st.toWrite, st.toWrite, written⟩]⟩

/-- `int to_write = len`. -/
def sendStart (len : Int) : Sending := ⟨len, []⟩

/-- The bytes a call was passed and took. -/
def SendCall.accepted (memory : Int → UInt8) (c : SendCall) : List UInt8 :=
  readAt memory c.offset c.written.toNat

/-- The bytes the socket took, in order. -/
def Sending.accepted (memory : Int → UInt8) (st : Sending) : List UInt8 :=
  st.calls.flatMap (SendCall.accepted memory)

/-! ## The BLE server -/

/-- A call of `memcpy`, from `data + offset` into the fragment buffer. -/
structure Copy where
  offset : Int
  size : ℕ
  deriving DecidableEq, Repr

/-- The variables of the loop of `send_data_ble_s3`, the copies it made,
and the payloads passed to `esp_ble_gatts_send_indicate`. -/
structure Fragmenting where
  currentNum : UInt8
  dataFrag : List UInt8
  copies : List Copy
  payloads : List (List UInt8)
  deriving DecidableEq, Repr

/-- `spp_mtu_size - 3`, an `int`. -/
def fragSize (sppMtuSize : UInt16) : Int := sppMtuSize.toNat - 3

/-- `total_num`, an 8-bit number. -/
def totalNum (sppMtuSize : UInt16) (len : ℕ) : UInt8 :=
  let size := toSize (fragSize sppMtuSize)
  if len % size = 0 then UInt8.ofNat (len / size) else UInt8.ofNat (len / size + 1)

/-- `(current_num - 1) * (spp_mtu_size - 3)`. -/
def fragOffset (sppMtuSize : UInt16) (currentNum : UInt8) : Int :=
  (currentNum.toNat - 1) * fragSize sppMtuSize

/-- What is copied for a fragment: the last has what is left. -/
def fragCopy (sppMtuSize : UInt16) (len : ℕ) (currentNum : UInt8) : Copy :=
  if currentNum < totalNum sppMtuSize len then
    ⟨fragOffset sppMtuSize currentNum, toSize (fragSize sppMtuSize)⟩
  else ⟨fragOffset sppMtuSize currentNum, toSize (len - fragOffset sppMtuSize currentNum)⟩

/-- `esp_ble_gatts_send_indicate` of a value, whose length it takes as 16
bits. -/
def indicated (memory : Int → UInt8) (valueLen : ℕ) : List UInt8 :=
  readAt memory 0 (UInt16.ofNat valueLen).toNat

/-- `while (current_num <= total_num)`. -/
def fragLoop (outside : Int → UInt8) (sppMtuSize : UInt16) (data : CStr) : Loop Fragmenting where
  cond st := st.currentNum ≤ totalNum sppMtuSize data.length
  body st :=
    let c := fragCopy sppMtuSize data.length st.currentNum
    -- the buffer keeps what a shorter copy does not reach
    let dataFrag := readAt (blockAt data outside) c.offset c.size ++ st.dataFrag.drop c.size
    some ⟨st.currentNum + 1, dataFrag, st.copies ++ [c],
      st.payloads ++ [indicated (blockAt dataFrag outside) c.size]⟩

/-- `current_num = 1`, and the buffer as `malloc` returned it. -/
def fragStart (outside : Int → UInt8) (sppMtuSize : UInt16) : Fragmenting :=
  ⟨1, readAt outside 0 (toSize (fragSize sppMtuSize)), [], []⟩

/-- The copies a call of `send_data_ble_s3` made and the payloads it sent
out. -/
structure Transmission where
  copies : List Copy
  payloads : List (List UInt8)
  deriving DecidableEq, Repr

/-- `send_data_ble_s3`, for a number of turns of its loop: `EOT` is
appended, and data that fit in a packet are sent from where they are. -/
def fragmentsBleS3 (isConnected : Bool) (outside : Int → UInt8) (sppMtuSize : UInt16)
    (turns : ℕ) (data : CStr) : Option Transmission :=
  if ¬ isConnected then some ⟨[], []⟩
  else
    let text := data ++ [4]
    if text.length ≤ toSize (fragSize sppMtuSize) then
      some ⟨[], [indicated (blockAt text outside) text.length]⟩
    else
      ((fragLoop outside sppMtuSize text).run turns (fragStart outside sppMtuSize)).map
        fun st => ⟨st.copies, st.payloads⟩

end SmartLock
