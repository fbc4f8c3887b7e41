import SmartLock.System.Log
import SmartLock.System.Wiring

/-!
# A session while the other transport is served

What a session can see of the events of the other transport. TCP may reset
the session of BLE and does no more to it; BLE does nothing at all to the
session of TCP, whose key no BLE address has.
-/

namespace SmartLock

open Prog

variable {W : World} {a b : CStr} {s t : Sys} {ip : Vector UInt8 4} {bda : Vector UInt8 6}

/-- What is observed leaves what was observed of `a`. -/
def Obs.notOf (a : CStr) (o : Obs) : Prop := o.addr ≠ some a

theorem talking_notOf {o : Obs} (hne : b ≠ a) (ho : o.ambient = true ∨ (talking b).obs o) :
    o.notOf a ∧ o ≠ .close := by
  rcases ho with ho | ⟨hconn, haddr⟩
  · have haddr : o.addr = none := by cases o <;> first | rfl | cases ho
    refine ⟨fun h => Option.some_ne_none a (h.symm.trans haddr), ?_⟩
    rintro rfl
    cases ho
  · refine ⟨fun h => hne (haddr a h).symm, ?_⟩
    rintro rfl
    cases hconn

/-! ## BLE, while TCP is served -/

/-- What the BLE servers hold. -/
def Sys.bleServers (s : Sys) : CStr × Bool × Bool × Bool :=
  (s.bleUserAddr, s.isConnected, s.gotFirstInviteSessionKeyS3, s.gotFirstInviteSessionKey)

theorem bleServers_of_servers (h : t.servers = s.servers) : t.bleServers = s.bleServers := by
  simp only [Sys.servers, Prod.mk.injEq] at h
  simp only [Sys.bleServers, Prod.mk.injEq]
  tauto

/-- The session of `a` was reset at most, and nothing was observed of it. -/
def aside (a : CStr) : Frame Sys where
  rel s t := t.bleServers = s.bleServers ∧
    (t.user a = s.user a ∨ t.user a = (s.user a).map UserInfo.reset) ∧ Grows (Obs.notOf a) s t
  refl s := ⟨rfl, .inl rfl, Grows.refl _ s⟩
  trans h₁ h₂ := by
    obtain ⟨hservers₁, huser₁, hlog₁⟩ := h₁
    obtain ⟨hservers₂, huser₂, hlog₂⟩ := h₂
    refine ⟨hservers₂.trans hservers₁, ?_, hlog₁.trans hlog₂⟩
    rcases huser₂ with h₂ | h₂
    · rw [h₂]
      exact huser₁
    · rcases huser₁ with h₁ | h₁
      · rw [h₂, h₁]
        exact .inr rfl
      · rw [h₂, h₁, Option.map_map]
        exact .inr rfl

theorem aside_noted {o : Obs} (h : o.notOf a) : (aside a).rel s (s.noted o) :=
  ⟨rfl, .inl rfl, [o], rfl, fun _ ho => List.mem_singleton.1 ho ▸ h⟩

/-- **TCP resets the session of BLE at most.** -/
theorem aside_overTcp (hkey : hashKey a ≠ hashKey (inetNtoa ip)) : OverTcp (aside a) ip := by
  have hne : inetNtoa ip ≠ a := fun h => hkey (by rw [h])
  refine ⟨fun s t h => ⟨bleServers_of_servers h.servers, ?_, ?_⟩, fun s _ => (aside a).refl s,
    fun s => (aside a).refl s, fun s => aside_noted ?_, fun s => aside_noted nofun,
    fun s => aside_noted ?_, fun s => (aside a).refl s⟩
  · exact (h.user a hkey).imp id fun h => h.2.2
  · obtain ⟨new, hnew, hp⟩ := h.log
    exact ⟨new, hnew, fun o ho => (talking_notOf hne (hp o ho)).1⟩
  · exact fun h => hne (Option.some.inj h)
  · exact fun h => hne (Option.some.inj h)

/-- The S3 goes on serving the same client. -/
def client : Frame Sys where
  rel s t := t.bleUserAddr = s.bleUserAddr ∧ t.isConnected = s.isConnected
  refl _ := ⟨rfl, rfl⟩
  trans h₁ h₂ := ⟨h₂.1.trans h₁.1, h₂.2.trans h₁.2⟩

theorem client_talks : client.Talks a := fun _ _ h =>
  ⟨Sys.bleUserAddr_of_servers h.servers, Sys.isConnected_of_servers h.servers⟩

/-! ## TCP, while BLE is served -/

/-- Nothing was done to the session of `a`, and nothing observed of it. -/
def apart (a : CStr) : Frame Sys where
  rel s t := (t.addrStr = s.addrStr ∧ t.serving = s.serving) ∧
    (hashKey s.currentBLEAddr ≠ hashKey a →
      hashKey t.currentBLEAddr ≠ hashKey a ∧ t.user a = s.user a) ∧
    Grows (fun o => o.notOf a ∧ o ≠ .close) s t
  refl s := ⟨⟨rfl, rfl⟩, fun h => ⟨h, rfl⟩, Grows.refl _ s⟩
  trans h₁ h₂ := by
    obtain ⟨⟨haddr₁, hserving₁⟩, huser₁, hlog₁⟩ := h₁
    obtain ⟨⟨haddr₂, hserving₂⟩, huser₂, hlog₂⟩ := h₂
    refine ⟨⟨haddr₂.trans haddr₁, hserving₂.trans hserving₁⟩, fun h => ?_, hlog₁.trans hlog₂⟩
    obtain ⟨hcur₁, hu₁⟩ := huser₁ h
    obtain ⟨hcur₂, hu₂⟩ := huser₂ hcur₁
    exact ⟨hcur₂, hu₂.trans hu₁⟩

theorem apart_noted {o : Obs} (h : o.notOf a) (hclose : o ≠ .close) :
    (apart a).rel s (s.noted o) :=
  ⟨⟨rfl, rfl⟩, fun h => ⟨h, rfl⟩, [o], rfl, fun _ ho => List.mem_singleton.1 ho ▸ ⟨h, hclose⟩⟩

theorem apart_talks (hkey : hashKey b ≠ hashKey a) : (apart a).Talks b := by
  intro s t h
  have hne : b ≠ a := fun h => hkey (by rw [h])
  refine ⟨⟨Sys.addrStr_of_servers h.servers, Sys.serving_of_servers h.servers⟩,
    fun hcur => ⟨by rwa [Sys.currentBLEAddr_of_servers h.servers], ?_⟩, ?_⟩
  · exact h.user_eq hkey.symm fun h => hcur h.2.symm
  · obtain ⟨new, hnew, hp⟩ := h.log
    exact ⟨new, hnew, fun o ho => talking_notOf hne (hp o ho)⟩

/-- No address at all has the key of none. -/
theorem hashKey_nil_ne (ip : Vector UInt8 4) : hashKey [] ≠ hashKey (inetNtoa ip) := by
  intro h
  have hzero : (0 : UInt8) ∈ hashKey [] := by decide
  exact absurd (mem_hashKey_inetNtoa (h ▸ hzero)) (by decide)

/-- The session that is reset is not one of TCP. -/
theorem Wired.current_ne (h : Wired W s) (ip : Vector UInt8 4) :
    hashKey s.currentBLEAddr ≠ hashKey (inetNtoa ip) := by
  rcases h.ble with hnil | ⟨x, hx, hcur⟩
  · rw [hnil]
    exact hashKey_nil_ne ip
  · rw [hcur]
    exact hashKey_ipv4_ne hx ip

/-- **The S3 leaves the session of TCP alone.** -/
theorem apart_overS3 (ip : Vector UInt8 4) (bda : Vector UInt8 6) :
    OverS3 (apart (inetNtoa ip)) bda := by
  have hkey : hashKey (macText bda) ≠ hashKey (inetNtoa ip) := hashKey_ipv4_ne (x := .ble bda) rfl ip
  have hne : macText bda ≠ inetNtoa ip := fun h => hkey (by rw [h])
  have hnot : Obs.notOf (inetNtoa ip) (.connect (macText bda)) := fun h => hne (Option.some.inj h)
  refine ⟨apart_talks hkey, fun s => ⟨⟨rfl, rfl⟩, fun _ => ⟨hkey, rfl⟩, [_], rfl, ?_⟩,
    fun s => ⟨⟨rfl, rfl⟩, fun _ => ⟨hashKey_nil_ne ip, rfl⟩, Grows.refl _ s⟩,
    fun s => apart_noted (fun h => hne (Option.some.inj h)) nofun, fun s _ => (apart _).refl s⟩
  exact fun _ ho => List.mem_singleton.1 ho ▸ ⟨hnot, nofun⟩

/-- **And so does the S2.** -/
theorem apart_overUart (ip : Vector UInt8 4) : OverUart (apart (inetNtoa ip)) := by
  have hkey : hashKey bleUser ≠ hashKey (inetNtoa ip) := hashKey_ipv4_ne (x := .bleUser) rfl ip
  have hne : bleUser ≠ inetNtoa ip := fun h => hkey (by rw [h])
  refine ⟨apart_talks hkey, fun s _ => (apart _).refl s,
    fun s => apart_noted (fun h => hne (Option.some.inj h)) nofun,
    fun s => apart_noted (fun h => hne (Option.some.inj h)) nofun, fun s addr haddr => ?_,
    fun s _ => (apart _).refl s, fun s _ => (apart _).refl s, fun s _ => (apart _).refl s⟩
  refine ⟨⟨rfl, rfl⟩, fun _ => ⟨?_, rfl⟩, Grows.refl _ s⟩
  rcases haddr with rfl | rfl
  · exact hashKey_nil_ne ip
  · exact hkey

end SmartLock
