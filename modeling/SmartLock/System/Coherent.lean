import SmartLock.System.OneCommand
import SmartLock.System.Pieces

/-!
# What a session record holds

Whatever the servers and the commands do, and in whatever order, a record
names a phone exactly while its session is authorized, and no session is
authorized before a seed was drawn for it.
-/

namespace SmartLock

open Prog

variable {W : World} {a : CStr} {s s' : Sys} {args : List CStr}

/-- What a record holds agrees with the state of its session. -/
structure UserInfo.Coherent (r : UserInfo) : Prop where
  phone : r.phoneId ≠ [] ↔ r.state = .authorized
  seeded : r.state = .authorized → r.seed ≠ none

/-- The records are coherent. -/
def Sys.Coherent (s : Sys) : Prop := ∀ a r, s.user a = some r → r.Coherent

theorem UserInfo.coherent_of_apart {r : UserInfo} (hstate : r.state ≠ .authorized)
    (hphone : r.phoneId = []) : r.Coherent where
  phone := iff_of_false (not_not.2 hphone) hstate
  seeded h := absurd h hstate

/-- A record is written, and the others are left. -/
theorem Sys.Coherent.wrote {g : UserInfo → UserInfo} (h : s.Coherent) (hwrote : Wrote a g s s')
    (hg : ∀ r, s'.user a = some (g r) → (g r).Coherent) : s'.Coherent := by
  intro b r hr
  by_cases hb : hashKey b = hashKey a
  · obtain ⟨x, hx, -⟩ := hwrote.self
    rw [Sys.user_congr hb, hx, Option.some.injEq] at hr
    subst hr
    exact hg x hx
  · rw [hwrote.others b hb] at hr
    exact h b r hr

theorem Sys.Coherent.of_user (h : s.Coherent) (huser : ∀ b, s'.user b = s.user b) :
    s'.Coherent := fun b r hr => h b r (by rwa [huser] at hr)

/-! ## The pieces -/

/-- A reset leaves nothing of the phone. -/
theorem coherent_unwritten {F : Footprint} (hF : ∀ k, ¬ F.key k) (h : F.Rel s s')
    (hs : s.Coherent) : s'.Coherent := by
  intro b r hr
  rcases h.user b (hF _) with heq | ⟨-, -, heq⟩
  · exact hs b r (by rwa [heq] at hr)
  · rw [heq] at hr
    obtain ⟨x, -, rfl⟩ := Option.map_eq_some_iff.1 hr
    exact UserInfo.coherent_of_apart nofun rfl

theorem setUserState_coherent (a : CStr) {state : UserState} (hstate : state ≠ .authorized) :
    Keeps Sys.Coherent (setUserState W a state []) := fun _ _ _ hs hrun =>
  hs.wrote (setUserState_ok hrun) fun _ _ => UserInfo.coherent_of_apart hstate rfl

/-- Where credentials are accepted, the session has a record. -/
theorem credentials_coherent {ok : Bool} {data : CStr} (hs : s.Coherent)
    (hrun : (retrieveSessionCredentials W data a).run s = (.ok ok, s')) :
    s'.Coherent ∧ (ok = true → s'.user a ≠ none) := by
  rcases retrieveSessionCredentials_ok hrun with ⟨rfl, huser, -⟩ | ⟨-, ctx, hwrote, -⟩
  · exact ⟨hs.of_user huser, nofun⟩
  · refine ⟨hs.wrote hwrote fun _ _ => UserInfo.coherent_of_apart nofun rfl, fun _ => ?_⟩
    obtain ⟨x, hx, -⟩ := hwrote.self
    rw [hx]
    exact Option.some_ne_none _

/-- A seed changes nothing else. -/
theorem racResponse_coherent {response : CStr} (hs : s.Coherent) (hknown : s.user a ≠ none)
    (hrun : (racResponse W a).run s = (.ok response, s')) : s'.Coherent := by
  obtain ⟨seed, text, -, -, hwrote, -⟩ := racResponse_ok hrun
  obtain ⟨x, hx⟩ := Option.ne_none_iff_exists'.1 hknown
  have hx' := hwrote.of_some hx
  refine hs.wrote hwrote fun r hr => ?_
  rw [← Option.some.inj (hx'.symm.trans hr)]
  exact ⟨(hs a x hx).phone, fun _ => Option.some_ne_none _⟩

theorem opening_coherent (a data : CStr) : Keeps Sys.Coherent (do
    if ← retrieveSessionCredentials W data a then
      let response ← racResponse W a
      let aes ← getUserAESCtx a
      return some (⟨false, aes, some response⟩ : Response)
    else return none) := by
  intro s r s' hs hrun
  obtain ⟨ok, s₁, hcred, hopens⟩ := bind_ok.1 hrun
  obtain ⟨hs₁, hknown⟩ := credentials_coherent hs hcred
  cases ok with
  | false =>
    cases hopens
    exact hs₁
  | true =>
    obtain ⟨response, s₂, hrac, hreads⟩ := bind_ok.1 hopens
    obtain ⟨aes, s₃, hctx, hret⟩ := bind_ok.1 hreads
    cases hret
    exact coherent_unwritten (F := elsewhere) (fun _ => id) (getUserAESCtx_within.of_ok hctx)
      (racResponse_coherent hs₁ (hknown rfl) hrac)

/-- The phone of an accepted code is the first argument. -/
theorem sacValid_phone (h : (sacValid W args a).run s = (.ok true, s')) :
    ∃ p s₁ s₂, argument args 0 = some p ∧
      (setUserState W a .authorized p).run s₁ = (.ok (), s₂) ∧ s'.usersInfo = s₂.usersInfo := by
  simp only [sacValid, bind_ok, argAt_ok] at h
  obtain ⟨p, _, ⟨hp, rfl⟩, code, _, -, ok, s₁, -, hrest⟩ := h
  cases ok with
  | false => cases hrest
  | true =>
    obtain ⟨seed, s₂, -, hchecks⟩ := bind_ok.1 hrest
    obtain ⟨ok, s₃, -, hsets⟩ := bind_ok.1 hchecks
    cases ok with
    | false => cases hsets
    | true =>
      obtain ⟨_, s₄, hset, hret⟩ := bind_ok.1 hsets
      cases hret
      exact ⟨p, s₃, s₄, hp, hset, rfl⟩

theorem sac_coherent (args : List CStr) (a : CStr) (hargs : ∀ arg ∈ args, arg ≠ []) :
    Keeps Sys.Coherent (sacValid W args a) := by
  intro s valid s' hs hrun
  rcases sacValid_ok hrun with ⟨rfl, h₁⟩ | ⟨rfl, p, code, key, s₁, s₂, h₁, hright, -, hset, rfl⟩
  · exact hs.of_user fun b => h₁.user_eq id fun h => h.1
  · have huser (b : CStr) : s₁.user b = s.user b := h₁.user_eq id fun h => h.1
    obtain ⟨x, b, hx, hseed, -⟩ := hright
    have hwrote := setUserState_ok hset
    have hx' := hwrote.of_some ((huser a).trans hx)
    obtain ⟨q, t, t', hq, hset', hsame⟩ := sacValid_phone hrun
    -- the phone the record is given is the argument
    have hpq : p = q := by
      obtain ⟨y, hy, -⟩ := (setUserState_ok hset').self
      have husers : s₂.user a = t'.user a := by rw [Sys.user, Sys.user, ← hsame]; rfl
      rw [hx', hy, Option.some.injEq] at husers
      exact congrArg UserInfo.phoneId husers
    subst hpq
    have hne : p ≠ [] := by
      rw [argument, if_neg (by decide)] at hq
      exact hargs p (List.mem_of_getElem? hq)
    refine (hs.of_user huser).wrote (hwrote.congr rfl) fun r hr => ?_
    rw [← Option.some.inj (hx'.symm.trans hr)]
    refine ⟨iff_of_true hne rfl, fun _ => ?_⟩
    change x.seed ≠ none
    rw [hseed]
    exact Option.some_ne_none b

/-- **Every piece keeps the records coherent.** -/
theorem coherent_pieces : Pieces W anyEnd fun (α : Type) (m : M α) => Keeps Sys.Coherent m where
  hereditary := Keeps.hereditary _
  elsewhere hm _ _ _ hs hrun := coherent_unwritten (fun _ => id) (hm.of_ok hrun) hs
  assign hf := Keeps.of_steps (.modify fun s hs =>
    hs.of_user fun b => by rw [Sys.user, Sys.user, hf.usersInfo])
  setUserState := setUserState_coherent
  credentials _ _ _ _ _ hs hrun := (credentials_coherent hs hrun).1
  opening := opening_coherent
  sac := sac_coherent
  door hact _ _ _ hs hrun :=
    coherent_unwritten (F := ⟨fun _ => False, True, True, True, False, True, fun _ => True⟩)
      (fun _ => id) ((door_within hact trivial trivial trivial).of_ok hrun) hs
  reply _ _ _ _ _ _ _ := .of_steps fun _ hs => hs
  ping _ := .of_steps fun _ hs => hs

/-! ## Runs -/

theorem Boot.coherent (h : Boot W s) : s.Coherent := by
  intro a r hr
  obtain ⟨-, -, hstate, hphone⟩ := h.usersInfo r (List.mem_of_find?_eq_some hr)
  exact UserInfo.coherent_of_apart (by rw [hstate]; nofun) hphone

/-- **In every reachable state** a session record names a phone exactly if
the session is authorized, and an authorized session has a seed. -/
theorem records_coherent (h : Reachable W s) : s.Coherent := by
  obtain ⟨s₀, es, hboot, hrun⟩ := h
  exact coherent_pieces.run es s₀ () s hboot.coherent hrun

/-- The theorem, where the session of a BLE client is authorized. -/
theorem records_coherent_shown : ∃ s, Reachable (World.answering .esp32s3) s ∧
    (s.user s.bleUserAddr).map UserInfo.state = some .authorized ∧ s.Coherent := by
  obtain ⟨s, hs, -, hstate⟩ := exists_shown
  exact ⟨s, hs, hstate, records_coherent hs⟩

end SmartLock
