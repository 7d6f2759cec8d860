/-
# Additions that are taken back

Adding a service exports its nodes one after the other, and the first export that fails ends the
addition.  The nodes exported before are then withdrawn, last one first.  All of these withdrawals
are tried, and whatever becomes of them, the addition ends with the error of the export and leaves
the application as it was.  If they all succeed, a bus that refuses to export what it holds is left
with what it held (`Application.failed_export_rolled_back`).

The courses of an addition tell the exchanges up to the first failure.  So it remains to see that
the export in question is this failure: neither of two failures comes first (`split_cases`).
-/

import GattServer.Proofs.History

namespace GattServer

namespace Application

variable {app app' : Application} {s : Service} {n : Node} {done rest nodes : List Node} {e : Error}
  {t before after back : List (Exchange Application)} {x : Exchange Application} {r : Answer}
  {H : Held}

/-- Exports that all succeed have no place for one that fails. -/
theorem succeeded_of_length_lt (hsplit : app.exporting nodes ++ back = before ++ x :: after)
    (hplace : before.length < nodes.length) : x.Succeeded := by
  have hx : (app.exporting nodes ++ back)[before.length]? = some x := by
    rw [hsplit, List.getElem?_append_right le_rfl, Nat.sub_self, List.getElem?_cons_zero]
  have hlength : before.length < (app.exporting nodes).length := by
    rwa [exporting, List.length_map]
  rw [List.getElem?_append_left hlength] at hx
  obtain ⟨n, -, rfl⟩ := mem_exporting (List.mem_of_getElem? hx)
  rfl

/-- **The course of an addition** in which the export of some node is the first call that fails. -/
theorem Addition.rolledBack_at (course : Addition app s t r app')
    (nodes : s.nodes = done ++ n :: rest) (split : t = before ++ x :: after)
    (place : before.length = done.length) (succeeded : ∀ y ∈ before, y.Succeeded)
    (fails : x.answer = .error e) :
    r = .error e ∧ app' = app ∧
      t = app.exporting done ++ ⟨app, n.exported app.id, .error e⟩ :: after ∧
      after.map Exchange.question = done.reverse.map fun m => (app, m.withdrawn) := by
  have hfailed : ¬ x.Succeeded := by
    rw [Exchange.Succeeded, fails]
    exact nofun
  have hplace : before.length < s.nodes.length := by
    rw [place, nodes, List.length_append, List.length_cons]
    omega
  cases course with
  | refused => exact absurd split (by simp)
  | unpublished | unannounced | completed =>
    exact absurd (succeeded_of_length_lt split hplace) hfailed
  | @rolledBack exported others m cause back welcome hnodes withdrawals =>
    have hexported : ∀ y ∈ app.exporting exported, y.Succeeded := by
      intro y hy
      obtain ⟨k, -, rfl⟩ := mem_exporting hy
      rfl
    have hcause : ¬ (⟨app, m.exported app.id, .error cause⟩ : Exchange Application).Succeeded :=
      nofun
    -- neither of the two failures comes before the other
    rcases split_cases split with ⟨rfl, rfl, rfl⟩ | ⟨hearlier, -⟩ | ⟨hearlier, -⟩
    case inr.inl => exact absurd (succeeded _ hearlier) hcause
    case inr.inr => exact absurd (hexported _ hearlier) hfailed
    have hlength : exported.length = done.length := by rwa [exporting, List.length_map] at place
    obtain ⟨rfl, hrest⟩ := List.append_inj (hnodes.symm.trans nodes) hlength
    obtain ⟨rfl, -⟩ := List.cons.inj hrest
    cases fails
    exact ⟨rfl, rfl, rfl, withdrawals⟩

/-- **An addition whose export fails is taken back.**  On any bus, if the export of some node is the
first call that fails, the addition ends with its error and leaves the application as it was at
every call.  The calls are the exports up to this one and the withdrawals of the nodes before it,
last one first, whatever they are answered.  If the bus refuses to export what it holds and all
withdrawals succeed, it holds what it held. -/
theorem failed_export_rolled_back {β : Type} (bus : Bus β) (b : β)
    (nodes : s.nodes = done ++ n :: rest)
    (split : ((app.script (addService s)).record bus b).1 = before ++ x :: after)
    (place : before.length = done.length) (succeeded : ∀ y ∈ before, y.Succeeded)
    (fails : x.answer = .error e) :
    let played := (app.script (addService s)).record bus b
    played.2.1 = (.error e, app) ∧ (∀ y ∈ played.1, y.state = app) ∧
      played.1.map Exchange.call =
        (done ++ [n]).map (Node.exported app.id) ++ done.reverse.map Node.withdrawn ∧
      ∀ H, Refusing H played.1 → (∀ y ∈ after, y.Succeeded) → held H played.1 = H := by
  intro played
  have performs : app.Performs (addService s) played.1 played.2.1.1 played.2.1.2 :=
    performs_record bus app (addService s) b
  obtain ⟨hresult, hstate, hplayed, withdrawals⟩ :=
    (performs_addService performs).rolledBack_at nodes split place succeeded fails
  rw [hplayed]
  refine ⟨Prod.ext hresult hstate, fun y hy => ?_, ?_, fun H refusing smooth => ?_⟩
  · rcases List.mem_append.1 hy with hy | hy
    · obtain ⟨m, -, rfl⟩ := mem_exporting hy
      rfl
    rcases List.mem_cons.1 hy with rfl | hy
    · rfl
    · exact (mem_of_question withdrawals hy).1
  · have hback : after.map Exchange.call = done.reverse.map Node.withdrawn := by
      have hcalls := congrArg (List.map Prod.snd) withdrawals
      rwa [List.map_map, List.map_map] at hcalls
    rw [List.map_append, List.map_cons, hback]
    simp [exporting]
  · have hfailed : (⟨app, n.exported app.id, .error e⟩ : Exchange Application).moved? = none := rfl
    have hexports : Refusing H (app.exporting done) := (refusing_append.1 refusing).1
    rw [held_append, held_cons, Exchange.after_of_moved?_eq_none hfailed,
      eq_withdrawing withdrawals smooth]
    exact held_exporting_withdrawing fun m hm => notMem_of_refusing_exporting hexports hm

/-- An application that runs and has no services. -/
def launched : Application := (play Sample.answering (fresh 0 Sample.profile) [.run] []).2.1

/-- The hypotheses are satisfiable, for a service of three nodes: the export of the last one fails.
Once the first of the two withdrawals fails as well, and once both succeed. -/
theorem failed_export_rolled_back_descriptor :
    let stumbling := (launched.script (addService Sample.battery)).record Sample.answering
      [.ok (), .ok (), Sample.failure, .error .nameTaken]
    let smooth := (launched.script (addService Sample.battery)).record Sample.answering
      [.ok (), .ok (), Sample.failure]
    stumbling.1.length = 5 ∧ stumbling.2.1 = (Sample.failure, launched) ∧
      held {(launched.path, .objectManager)} smooth.1 = {(launched.path, .objectManager)} := by
  intro stumbling smooth
  have nodes : Sample.battery.nodes = Sample.battery.nodes.take 2 ++
      [.descriptor Sample.battery Sample.level Sample.label] := rfl
  have hstumbling : stumbling.1 = stumbling.1.take 2 ++ stumbling.1.get ⟨2, by decide⟩ ::
    stumbling.1.drop 3 := rfl
  have hsmooth : smooth.1 = smooth.1.take 2 ++ smooth.1.get ⟨2, by decide⟩ :: smooth.1.drop 3 :=
    rfl
  refine ⟨by decide, ?_, ?_⟩
  · exact (failed_export_rolled_back Sample.answering _ nodes hstumbling rfl (by decide) rfl).1
  · exact (failed_export_rolled_back Sample.answering _ nodes hsmooth rfl (by decide) rfl).2.2.2 _
      (by decide) (by decide)

end Application
end GattServer
