import TableTalk.Proofs.Store.Running

/-!
# Conditions one by one

A record satisfies some conditions if each of them holds of it alone (`Expr.allHold_eq_iff`), and if
they fail on it, one of them does alone (`Expr.exists_of_allHold`). What a plan gives comes from the
records that it keeps, whatever the conditions are that keep them (`Plan.run_eq`), and other
conditions beside the same items make a plan with the rest as it is (`Scope.plan_conditions`).
-/

namespace TableTalk

open Sql

namespace Sql.Expr

variable {x : Record} {f : Fault}

theorem allHold_single (x : Record) (e : Expr Ref) :
    allHold x [e] = (e.evaluate (.single x)).map Cell.holds := by
  rw [allHold]
  rcases e.evaluate (.single x) with f | c
  · rfl
  · rw [bind_ok, map_ok]
    rcases c.holds <;> rfl

theorem allHold_eq_iff : ∀ {es : List (Expr Ref)} {b : Bool}, allHold x es = .ok b →
    (b = true ↔ ∀ e ∈ es, allHold x [e] = .ok true)
  | [], b, h => by
    cases h
    exact iff_of_true rfl nofun
  | e :: es, b, h => by
    obtain ⟨c, hc, h⟩ := bind_eq_ok.1 h
    rw [List.forall_mem_cons, allHold_single, hc, map_ok, Except.ok.injEq]
    rcases hholds : c.holds <;> rw [hholds] at h
    · cases h
      simp
    · rw [allHold_eq_iff h, and_iff_right rfl]

theorem exists_of_allHold : ∀ {es : List (Expr Ref)}, allHold x es = .error f →
    ∃ e ∈ es, allHold x [e] = .error f
  | e :: es, h => by
    rw [allHold] at h
    rcases he : e.evaluate (.single x) with g | c <;> rw [he] at h
    · cases h
      exact ⟨e, List.mem_cons_self, by rw [allHold_single, he, map_error]⟩
    · rcases hholds : c.holds <;> rw [bind_ok, hholds] at h
      · cases h
      · obtain ⟨d, hd, herror⟩ := exists_of_allHold h
        exact ⟨d, List.mem_cons_of_mem e hd, herror⟩

end Sql.Expr

namespace Plan

variable {p : Plan} {f : Fault}

theorem exists_of_selected : ∀ {rs : List Record}, p.selected rs = .error f →
    ∃ x ∈ rs, Expr.allHold x p.conditions = .error f
  | r :: rs, h => by
    rw [selected] at h
    rcases hr : Expr.allHold r p.conditions with g | b <;> rw [hr] at h
    · cases h
      exact ⟨r, List.mem_cons_self, hr⟩
    · rcases hrest : p.selected rs with g | rest <;> rw [bind_ok, hrest] at h
      · cases h
        obtain ⟨x, hx, herror⟩ := exists_of_selected hrest
        exact ⟨x, List.mem_cons_of_mem r hx, herror⟩
      · cases h

theorem run_eq (p : Plan) (rs : List Record) :
    p.run rs = (do let kept ← p.selected rs; ({ p with conditions := [] } : Plan).run kept) := by
  rw [run]
  rcases p.selected rs with f | kept
  · rfl
  · rw [bind_ok, bind_ok, run, selected_all rfl]
    rfl

end Plan

/-- Other conditions beside the items of a selection make a plan that is the same otherwise. -/
theorem Scope.plan_conditions {s : Scope} {t : Target} {schema : Schema} {a : Analysis}
    {cs : List (Expr Name)} {p : Plan} (h : s.plan (a.data t schema cs) = .ok p) :
    ∃ items, cs.mapM (s.resolve items) = .ok p.conditions ∧
      (∀ e ∈ p.conditions, e.aggregate? = none) ∧
      ∀ (ds : List (Expr Name)) (es : List (Expr Ref)), ds.mapM (s.resolve items) = .ok es →
        (∀ e ∈ es, e.aggregate? = none) →
          s.plan (a.data t schema ds) = .ok { p with conditions := es } := by
  obtain ⟨all, conditions, orderBy, groupBy, hall, hc, ho, hg, hagg, rfl⟩ := plan_eq_ok.1 h
  exact ⟨named all, hc, hagg, fun ds es hes hagg' =>
    plan_eq_ok.2 ⟨all, es, orderBy, groupBy, hall, hes, ho, hg, hagg', rfl⟩⟩

end TableTalk
