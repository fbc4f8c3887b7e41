import SmartLock.Footprint.Observed

/-!
# Reading the log

The properties of runs are about what was observed on one connection: what
the log holds since the connection began, and which command an observation
belongs to.
-/

namespace SmartLock

variable {a b cmd : CStr} {s t : Sys} {log new : List Obs}

/-- What was observed since the last connection of `a` began, newest
first. -/
def sinceConnect (a : CStr) (log : List Obs) : List Obs := log.takeWhile fun o => o ≠ .connect a

/-- A connection of `a` began and has not ended. -/
structure Connected (a : CStr) (log : List Obs) : Prop where
  began : .connect a ∈ log
  lasts : .disconnect a ∉ sinceConnect a log

theorem sinceConnect_append (h : .connect a ∉ new) :
    sinceConnect a (new ++ log) = new ++ sinceConnect a log :=
  List.takeWhile_append_of_pos fun o ho => by
    have hne : o ≠ .connect a := fun heq => h (heq ▸ ho)
    simpa using hne

@[simp] theorem sinceConnect_connect : sinceConnect a (.connect a :: log) = [] := by
  simp [sinceConnect]

/-- A connection lasts until it ends or begins anew. -/
theorem Connected.append (h : Connected a log) (hc : .connect a ∉ new) (hd : .disconnect a ∉ new) :
    Connected a (new ++ log) := by
  refine ⟨List.mem_append_right _ h.began, ?_⟩
  rw [sinceConnect_append hc, List.mem_append]
  exact fun hmem => hmem.elim hd h.lasts

theorem connected_append_iff (hc : .connect a ∉ new) (hd : .disconnect a ∉ new) :
    Connected a (new ++ log) ↔ Connected a log := by
  refine ⟨fun h => ⟨(List.mem_append.1 h.began).resolve_left hc, fun hmem => h.lasts ?_⟩,
    fun h => h.append hc hd⟩
  rw [sinceConnect_append hc]
  exact List.mem_append_right _ hmem

theorem not_connected_disconnect : ¬ Connected a (.disconnect a :: log) := fun h =>
  h.lasts (by
    rw [sinceConnect, List.takeWhile_cons_of_pos (by simp)]
    exact List.mem_cons_self ..)

theorem connected_connect : Connected a (.connect a :: log) :=
  ⟨List.mem_cons_self .., by rw [sinceConnect_connect]; exact List.not_mem_nil⟩

/-- No connection of `a` began or ended. -/
def Lasts (a : CStr) (s t : Sys) : Prop := Grows (fun o => o ≠ .connect a ∧ o ≠ .disconnect a) s t

theorem Lasts.connected (h : Lasts a s t) (hs : Connected a s.log) : Connected a t.log := by
  obtain ⟨new, hnew, hp⟩ := h
  rw [hnew]
  exact hs.append (fun hmem => (hp _ hmem).1 rfl) fun hmem => (hp _ hmem).2 rfl

/-- What was observed on a connection stays so. -/
theorem Lasts.sublist {l : List Obs} (h : Lasts a s t) (hs : l.Sublist (sinceConnect a s.log)) :
    l.Sublist (sinceConnect a t.log) := by
  obtain ⟨new, hnew, hp⟩ := h
  rw [hnew, sinceConnect_append fun hmem => (hp _ hmem).1 rfl]
  exact hs.trans (List.sublist_append_right _ _)

/-- What the trace grew by comes on top. -/
theorem Lasts.sublist_append {l m : List Obs} (h : Lasts a s t) (htrace : t.trace = m ++ s.trace)
    (hs : l.Sublist (sinceConnect a s.log)) : (m ++ l).Sublist (sinceConnect a t.log) := by
  obtain ⟨grown, hgrown, hp⟩ := h
  obtain ⟨grown', hgrown', hsub⟩ := exists_sublist ⟨grown, hgrown.symm⟩ htrace
  obtain rfl := List.append_cancel_right (hgrown.symm.trans hgrown')
  rw [hgrown, sinceConnect_append fun hmem => (hp _ hmem).1 rfl]
  exact hsub.append hs

theorem lasts_of_rel {F : Footprint} (h : F.Rel s t)
    (hobs : ∀ o, F.obs o → o ≠ .connect a ∧ o ≠ .disconnect a) : Lasts a s t := by
  refine h.log.mono fun o ho => ho.elim (fun hamb => ⟨?_, ?_⟩) (hobs o)
  · rintro rfl
    cases hamb
  · rintro rfl
    cases hamb

/-- The command an observation belongs to: the last one begun. -/
def lastCommand (log : List Obs) : Option (CStr × CStr) :=
  log.findSome? fun
    | .command a cmd => some (a, cmd)
    | _ => none

/-- The beginning of a command. -/
def Obs.isCommand : Obs → Bool
  | command _ _ => true
  | _ => false

theorem lastCommand_append (h : ∀ o ∈ new, o.isCommand = false) :
    lastCommand (new ++ log) = lastCommand log := by
  induction new with
  | nil => rfl
  | cons o new ih =>
    have ho := h o (List.mem_cons_self ..)
    rw [List.cons_append, lastCommand, List.findSome?_cons]
    cases o with
    | command a cmd => cases ho
    | _ => exact ih fun o ho => h o (List.mem_cons_of_mem _ ho)

end SmartLock
