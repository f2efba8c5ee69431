import TaintReplay.Check.Registration
import Mathlib.Data.List.Nodup
/-!
# Registrations — what a registry holds after a run of them

Registrations are served one after the other from the empty registry (`after`), and some of
them are accepted (`accepted`). A registry keeps the checkers in one list and their handlers
in another for each kind of event. That these are views of the accepted registrations, of
different names, is the invariant `Holds`: a registration keeps it, refused or accepted
(`Holds.register`), and so does a run (`holds_after`). What a registry answers, lists and
dispatches is read off it (`dispatches_accepted`).
-/

namespace TaintReplay

namespace Registry

variable {γ : Type u} {r : Registry γ} {c : Registration γ} {cs : List (Registration γ)}

/-! ## One registration -/

/-- **Handlers are filed under their kinds**, in order, behind those that were there. -/
theorem foldl_file (handlers : EventKind → List (Notice → γ → γ)) (hs : List (Handler γ))
    (k : EventKind) :
    hs.foldl file handlers k = handlers k ++ (hs.filter (·.kind = k)).map (·.run) := by
  induction hs generalizing handlers with
  | nil => simp
  | cons h hs ih =>
    rw [List.foldl_cons, ih, file]
    by_cases hk : h.kind = k
    · subst hk
      simp
    · simp [hk, Ne.symm hk]

/-- A name is taken if a checker has it. -/
theorem contains_iff_mem {name : String} :
    r.contains name = true ↔ name ∈ r.checkers.map (·.name) := by
  simp only [contains, List.any_eq_true, beq_iff_eq, List.mem_map]

/-- A registration under a name that is taken is refused, and nothing changes. -/
theorem register_of_taken (h : c.info.name ∈ r.checkers.map (·.name)) :
    r.register c = (.error (.duplicateChecker c.info.name), r) := by
  rw [register, add?, if_pos (contains_iff_mem.2 h)]

/-- Any other is accepted: its checker comes last, and its handlers are filed. -/
theorem register_of_free (h : c.info.name ∉ r.checkers.map (·.name)) :
    r.register c = (.ok (), ⟨r.checkers ++ [c.info], c.handlers.foldl file r.handlers⟩) := by
  rw [register, add?, if_neg fun hc => h (contains_iff_mem.1 hc)]

/-- Whether a registration is accepted. -/
def accepts (r : Registry γ) (c : Registration γ) : Bool := (r.register c).1.isOk

theorem accepts_of_taken (h : c.info.name ∈ r.checkers.map (·.name)) : r.accepts c = false := by
  rw [accepts, register_of_taken h]
  rfl

theorem accepts_of_free (h : c.info.name ∉ r.checkers.map (·.name)) : r.accepts c = true := by
  rw [accepts, register_of_free h]
  rfl

/-! ## Many of them -/

/-- The registry after registrations, from the empty one. -/
def after (cs : List (Registration γ)) : Registry γ :=
  cs.foldl (fun r c => (r.register c).2) .empty

/-- Those of the registrations that are accepted, in order. -/
def acceptedFrom (r : Registry γ) : List (Registration γ) → List (Registration γ)
  | [] => []
  | c :: cs =>
    let later := acceptedFrom (r.register c).2 cs
    if r.accepts c then c :: later else later

/-- Those that are accepted from the empty registry. -/
def accepted (cs : List (Registration γ)) : List (Registration γ) := acceptedFrom .empty cs

/-- **A registry holds registrations**: it lists their checkers in order, all of different
names, and for each kind of event the handlers they brought for it, in the order of the
registrations and of the handlers in each. -/
structure Holds (r : Registry γ) (cs : List (Registration γ)) : Prop where
  checkers : r.checkers = cs.map (·.info)
  distinct : (r.checkers.map (·.name)).Nodup
  handlers : ∀ k, r.handlers k = ((cs.flatMap (·.handlers)).filter (·.kind = k)).map (·.run)

theorem holds_empty : (empty : Registry γ).Holds [] where
  checkers := rfl
  distinct := List.nodup_nil
  handlers _ := rfl

/-- **A registration that is accepted is held behind the others**, and one that is refused
is not. -/
theorem Holds.register (h : r.Holds cs) (c : Registration γ) :
    (r.register c).2.Holds (cs ++ if r.accepts c then [c] else []) := by
  by_cases hname : c.info.name ∈ r.checkers.map (·.name)
  · rw [register_of_taken hname, accepts_of_taken hname]
    simpa using h
  · rw [register_of_free hname, accepts_of_free hname, if_pos rfl]
    refine ⟨?_, ?_, fun k => ?_⟩
    · simp [h.checkers]
    · rw [List.map_append, List.map_singleton, List.nodup_append_comm, List.singleton_append]
      exact List.nodup_cons.2 ⟨hname, h.distinct⟩
    · simp only [foldl_file, h.handlers k, List.flatMap_append, List.flatMap_singleton,
        List.filter_append, List.map_append]

/-- **A run of registrations keeps to the accepted ones.** -/
theorem Holds.foldl_register {held : List (Registration γ)} (h : r.Holds held)
    (cs : List (Registration γ)) :
    (cs.foldl (fun r c => (r.register c).2) r).Holds (held ++ acceptedFrom r cs) := by
  induction cs generalizing r held with
  | nil => simpa [acceptedFrom] using h
  | cons c cs ih =>
    have hrest := ih (h.register c)
    rw [List.foldl_cons, acceptedFrom]
    cases hc : r.accepts c <;> simpa [hc] using hrest

theorem holds_after (cs : List (Registration γ)) : (after cs).Holds (accepted cs) :=
  holds_empty.foldl_register cs

/-- **A registry dispatches to what it accepted.** After any registrations, the next one is
refused, as a duplicate and without a change to the registry, exactly if an accepted one has
its name, and is accepted otherwise. The checkers are those of the accepted registrations, in
order, and no two have the same name. A notice is of the kind it says: of calls, of their
ends, or of accesses. It goes through the handlers that the accepted registrations brought
for its kind, each as often as it was brought, in the order of the registrations and of the
handlers in them, every handler working on the context that the one before it left. -/
theorem dispatches_accepted (cs : List (Registration γ)) :
    (∀ c, ((after cs).register c = (.error (.duplicateChecker c.info.name), after cs) ↔
          ∃ d ∈ accepted cs, d.info.name = c.info.name) ∧
        (((after cs).register c).1 = .ok () ↔ ¬ ∃ d ∈ accepted cs, d.info.name = c.info.name)) ∧
      (after cs).checkers = (accepted cs).map (·.info) ∧
      ((after cs).checkers.map (·.name)).Nodup ∧
      (∀ k, (after cs).handlerCount k =
        ((accepted cs).flatMap (·.handlers)).countP (·.kind = k)) ∧
      ∀ n, ((n.kind = .preCall ↔ ∃ call, n = .preCall call) ∧
          (n.kind = .postCall ↔ ∃ call, n = .postCall call) ∧
          (n.kind = .location ↔ ∃ a, n = .location a)) ∧
        ∀ context, (after cs).dispatch n context =
          (((accepted cs).flatMap (·.handlers)).filter (·.kind = n.kind)).foldl
            (fun context h => h.run n context) context := by
  have hholds := holds_after cs
  refine ⟨fun c => ?_, hholds.checkers, hholds.distinct, fun k => ?_, fun n => ⟨?_, fun _ => ?_⟩⟩
  · have hname : c.info.name ∈ (after cs).checkers.map (·.name) ↔
        ∃ d ∈ accepted cs, d.info.name = c.info.name := by
      rw [hholds.checkers, List.map_map, List.mem_map]
      rfl
    rw [← hname]
    by_cases h : c.info.name ∈ (after cs).checkers.map (·.name)
    · rw [register_of_taken h]
      simp [h]
    · rw [register_of_free h]
      simp [h]
  · rw [handlerCount, hholds.handlers, List.length_map, List.countP_eq_length_filter]
  · exact ⟨Notice.kind_eq_preCall_iff, Notice.kind_eq_postCall_iff, Notice.kind_eq_location_iff⟩
  · rw [dispatch, hholds.handlers, List.foldl_map]

end Registry

end TaintReplay
