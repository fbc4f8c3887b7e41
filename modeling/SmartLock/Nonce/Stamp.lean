import SmartLock.Handler.Commands

/-!
# Stamps on the wire

`addTimestampsAndNonceToMsg` puts three numbers behind a message and
`verifyTimestampsAndNonce` reads three numbers from its end. The nonce is
printed as an unsigned number and read as a signed one, which the upper
half of the random values does not survive.
-/

namespace SmartLock

open Prog

variable {W W' : World} {msg : CStr} {k : ℕ} {s u : Sys}

/-- The message as it is stamped at the time `now` with the random value
`r`. -/
def stamped (msg : CStr) (now : Int) (r : UInt32) : CStr :=
  msg ++ lit " " ++ decInt (wrap32 (now - 30)) ++ lit " " ++ decInt (wrap32 (now + 30)) ++
    lit " " ++ dec r.toNat

/-- **What a message is stamped with**: the time, and a random value. -/
theorem addTimestampsAndNonceToMsg_run (W : World) (msg : CStr) (s : Sys) : ∃ s',
    (addTimestampsAndNonceToMsg W (some msg)).run s =
      (.ok (stamped msg (W.clock s.moment) (W.random (s.moment + 1))), s') := by
  have hnow : (getNowTimestamp W).run s = (.ok (W.clock s.moment), s.ticked) := rfl
  rw [addTimestampsAndNonceToMsg, run_bind_ok hnow, run_bind_ok (run_sprintf ..),
    run_bind_ok (run_sprintf ..), run_tick_bind, run_bind_ok (run_sprintf ..)]
  exact ⟨_, run_sprintf ..⟩

theorem wrap32_bounds (z : Int) : longMin ≤ wrap32 z ∧ wrap32 z ≤ longMax := by
  simp only [wrap32, longMin, longMax]
  omega

theorem wrap32_eq_iff {z : Int} : wrap32 z = z ↔ longMin ≤ z ∧ z ≤ longMax :=
  ⟨fun h => h ▸ wrap32_bounds z, fun h => wrap32_of_bounds h.1 h.2⟩

/-- A stamp adds at most two numbers of eleven characters, one of ten, and the
spaces. -/
theorem length_stamped_le (msg : CStr) (now : Int) (r : UInt32) :
    (stamped msg now r).length ≤ msg.length + 35 := by
  have hint (z : Int) : (decInt (wrap32 z)).length ≤ 11 := length_decInt_le (by
    simp only [wrap32]
    omega)
  have hts1 := hint (now - 30)
  have hts2 := hint (now + 30)
  have hnonce : (dec r.toNat).length ≤ 10 :=
    (length_dec_le (by decide)).2 (lt_of_lt_of_le r.toNat_lt (by decide))
  have hspace : (lit " ").length = 1 := by decide
  simp only [stamped, List.length_append, hspace]
  omega

/-- A stamp adds three words. -/
theorem words_stamped (now : Int) (r : UInt32) : words sep (stamped msg now r) =
    words sep msg ++ [decInt (wrap32 (now - 30)), decInt (wrap32 (now + 30)), dec r.toNat] := by
  have hassoc : stamped msg now r = msg ++ sep :: (decInt (wrap32 (now - 30)) ++ sep ::
      (decInt (wrap32 (now + 30)) ++ sep :: dec r.toNat)) := by
    simp [stamped, lit, sep]
  have hts (z : Int) : sep ∉ decInt z := space_notMem_decInt z
  have hnonce : sep ∉ dec r.toNat := space_notMem_dec _
  rw [hassoc, words_append, words_append_sep (decInt_ne_nil _) (hts _),
    words_append_sep (decInt_ne_nil _) (hts _), words_of_notMem (dec_ne_nil _) hnonce]

/-- What `getArgs` gives of a stamped message with `k` arguments of its
own. -/
theorem getArgs_stamped (hmsg : (words sep msg).length = k + 1) (now : Int) (r : UInt32) :
    (getArgs W (stamped msg now r) (k + 3)).run u = (.ok (some (arguments msg ++
      [decInt (wrap32 (now - 30)), decInt (wrap32 (now + 30)), dec r.toNat])), u) := by
  have hargs : arguments (stamped msg now r) = arguments msg ++
      [decInt (wrap32 (now - 30)), decInt (wrap32 (now + 30)), dec r.toNat] := by
    rw [arguments, words_stamped, List.drop_append_of_le_length (by omega), arguments]
  have hlen : (arguments (stamped msg now r)).length = k + 3 := by
    rw [hargs, List.length_append, arguments, List.length_drop, hmsg]
    rfl
  rw [getArgs, List.take_of_length_le hlen.le, if_neg (by omega), if_neg (by omega), hargs]
  rfl

/-- The nonce read where `r` was drawn. -/
def readNonce (r : UInt32) : Int := strtol (dec r.toNat)

/-- No other random value is read as the same nonce. -/
def DeterminesRandom (nonce : Int) (r : UInt32) : Prop := ∀ r', readNonce r' = nonce → r' = r

theorem readNonce_eq (r : UInt32) : readNonce r = min (r.toNat : Int) longMax := by
  rw [readNonce, strtol_dec, saturate, longMin, longMax]
  omega

/-- **The nonce determines the random value** below `LONG_MAX`, where
`strtol` does not saturate. -/
theorem determinesRandom_iff (r : UInt32) :
    DeterminesRandom (readNonce r) r ↔ (r.toNat : Int) < longMax := by
  constructor
  · intro h
    by_contra hr
    -- the largest value that is not cut, and the first that is
    have hmax : readNonce 2147483647 = longMax := by rw [readNonce_eq]; decide
    have hcut : readNonce 2147483648 = longMax := by rw [readNonce_eq]; decide
    have hread : readNonce r = longMax := by rw [readNonce_eq]; omega
    have hsame := (h _ (hmax.trans hread.symm)).trans (h _ (hcut.trans hread.symm)).symm
    exact absurd hsame (by decide)
  · intro hr r' heq
    rw [readNonce_eq, readNonce_eq] at heq
    exact UInt32.toNat_inj.1 (by omega)

/-- The last three arguments of the stamped message are the numbers it was
stamped with, and the nonce tells the random value. -/
structure Readable (k : ℕ) (args : List CStr) (now : Int) (r : UInt32) : Prop where
  ts1 : ∃ a, argument args (k + 0) = some a ∧ strtol a = now - 30
  ts2 : ∃ a, argument args (k + 1) = some a ∧ strtol a = now + 30
  nonce : ∃ a, argument args (k + 2) = some a ∧ DeterminesRandom (strtol a) r

/-- **Stamping and verifying agree exactly where no stamp leaves the `int`
and the random value is below `LONG_MAX`**: of every message with `k`
arguments, at every time and with every random value. -/
theorem stamp_readable_iff (hmsg : (words sep msg).length = k + 1) :
    ∃ text s', (addTimestampsAndNonceToMsg W (some msg)).run s = (.ok text, s') ∧
      ∃ args, (getArgs W' text (k + 3)).run u = (.ok (some args), u) ∧
        (Readable k args (W.clock s.moment) (W.random (s.moment + 1)) ↔
          longMin ≤ W.clock s.moment - 30 ∧ W.clock s.moment + 30 ≤ longMax ∧
            ((W.random (s.moment + 1)).toNat : Int) < longMax) := by
  obtain ⟨s', hstamp⟩ := addTimestampsAndNonceToMsg_run W msg s
  generalize W.clock s.moment = now at hstamp ⊢
  generalize W.random (s.moment + 1) = r at hstamp ⊢
  refine ⟨_, s', hstamp, _, getArgs_stamped hmsg now r, ?_⟩
  have hlen : (arguments msg).length = k := by
    rw [arguments, List.length_drop, hmsg]
    rfl
  -- the three values stamped are the last three arguments
  have hread (i : ℕ) : argument (arguments msg ++
      [decInt (wrap32 (now - 30)), decInt (wrap32 (now + 30)), dec r.toNat]) (k + i) =
      [decInt (wrap32 (now - 30)), decInt (wrap32 (now + 30)), dec r.toNat][i]? := by
    rw [argument, if_neg (by omega), show ((k : Int) + (i : ℕ)).toNat = k + i by omega,
      List.getElem?_append_right (by omega), hlen, Nat.add_sub_cancel_left]
  have h₀ := hread 0
  have h₁ := hread 1
  have h₂ := hread 2
  -- `strtol` saturates at a `long`, the stamp was printed from an `int`
  have hstrtol (z : Int) : strtol (decInt (wrap32 z)) = z ↔ longMin ≤ z ∧ z ≤ longMax := by
    rw [strtol_decInt, saturate_of_bounds (wrap32_bounds z).1 (wrap32_bounds z).2, wrap32_eq_iff]
  constructor
  · rintro ⟨⟨a₁, ha₁, hts1⟩, ⟨a₂, ha₂, hts2⟩, ⟨a₃, ha₃, hnonce⟩⟩
    obtain rfl := Option.some.inj (h₀.symm.trans ha₁)
    obtain rfl := Option.some.inj (h₁.symm.trans ha₂)
    obtain rfl := Option.some.inj (h₂.symm.trans ha₃)
    exact ⟨((hstrtol _).1 hts1).1, ((hstrtol _).1 hts2).2, (determinesRandom_iff r).1 hnonce⟩
  · rintro ⟨hmin, hmax, hr⟩
    have hlt : now - 30 ≤ longMax ∧ longMin ≤ now + 30 := ⟨by omega, by omega⟩
    exact ⟨⟨_, h₀, (hstrtol _).2 ⟨hmin, hlt.1⟩⟩, ⟨_, h₁, (hstrtol _).2 ⟨hlt.2, hmax⟩⟩,
      ⟨_, h₂, (determinesRandom_iff r).2 hr⟩⟩

/-- The stamp of a reply without arguments is read, by a client whose outside
is another. -/
theorem stamp_readable_iff_ack : ∃ text s' args,
    (addTimestampsAndNonceToMsg (World.still .esp32s3 100) (some (lit "ACK"))).run Sys.initial =
        (.ok text, s') ∧
      (getArgs (World.still .esp32s2 0) text 3).run Sys.initial = (.ok (some args), Sys.initial) ∧
      Readable 0 args 100 ((World.still .esp32s3 100).random 1) := by
  obtain ⟨text, s', hstamp, hread⟩ := stamp_readable_iff (W := World.still .esp32s3 100)
    (s := Sys.initial) (u := Sys.initial) (k := 0)
    (by decide : (words sep (lit "ACK")).length = 0 + 1)
  obtain ⟨args, hargs, hiff⟩ := hread
  exact ⟨text, s', args, hstamp, hargs, hiff.2 ⟨by decide, by decide, by decide⟩⟩

/-- An outside that draws a random value of the upper half. -/
def World.upperHalf : World := { World.still .esp32s3 100 with random := fun _ => 2147483648 }

/-- A nonce of the upper half is read as `LONG_MAX`, like any other. -/
theorem upper_half_collides : ¬ ∀ (W W' : World) (msg text : CStr) (k : ℕ) (s s' u : Sys)
    (args : List CStr), (words sep msg).length = k + 1 → W.clock s.moment + 30 ≤ longMax →
    (addTimestampsAndNonceToMsg W (some msg)).run s = (.ok text, s') →
    (getArgs W' text (k + 3)).run u = (.ok (some args), u) →
    Readable k args (W.clock s.moment) (W.random (s.moment + 1)) := by
  intro h
  obtain ⟨s', hstamp⟩ := addTimestampsAndNonceToMsg_run World.upperHalf (lit "ACK") Sys.initial
  have hmsg : (words sep (lit "ACK")).length = 0 + 1 := by decide
  have hargs := getArgs_stamped (W := World.upperHalf) (u := Sys.initial) hmsg 100 2147483648
  obtain ⟨a, ha, hnonce⟩ := (h _ _ _ _ _ _ _ _ _ (by decide) (by decide) hstamp hargs).nonce
  obtain rfl : dec (2147483648 : UInt32).toNat = a := Option.some.inj ha
  exact absurd ((determinesRandom_iff _).1 hnonce) (by decide)

end SmartLock
