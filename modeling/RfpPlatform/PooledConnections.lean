import RfpPlatform.TransitionRuns
import Mathlib.Logic.Function.Basic

namespace RfpPlatform.PooledConnections

open TransitionRuns

section Settings

/-- `app.current_org_id` on a connection: what is committed, and what the open transaction has set
for the session and for itself. -/
structure OrgSetting where
  committed : String
  session : Option String
  override : Option String

namespace OrgSetting

def fresh : OrgSetting := ⟨"", none, none⟩

def value (s : OrgSetting) : String := s.override.getD (s.session.getD s.committed)

/-- `set_config('app.current_org_id', v, false)` -/
def setConfig (s : OrgSetting) (v : String) : OrgSetting := ⟨s.committed, some v, none⟩

/-- `SET LOCAL app.current_org_id = v` -/
def setLocal (s : OrgSetting) (v : String) : OrgSetting := { s with override := some v }

def commit (s : OrgSetting) : OrgSetting := ⟨s.session.getD s.committed, none, none⟩

def rollback (s : OrgSetting) : OrgSetting := ⟨s.committed, none, none⟩

end OrgSetting

/-- `org or ""` -/
def orEmpty (org : Option String) : String := org.getD ""

def applyOrgContext (s : OrgSetting) (org : String) : OrgSetting := (s.setConfig org).commit

end Settings

section Pools

/-- A connection record of the pool. Its holder is the task that has checked the connection out,
with the organisation that was current then. -/
structure ConnectionRecord where
  connection : Option OrgSetting
  appOrg : Option String
  holder : Option (Option String)

namespace ConnectionRecord

def onConnect (r : ConnectionRecord) : ConnectionRecord :=
  { r with connection := some .fresh, appOrg := none }

/-- The checkout of a connection that stands at `s`. -/
def onCheckout (r : ConnectionRecord) (s : OrgSetting) (org : Option String) : ConnectionRecord :=
  if r.appOrg ≠ some (orEmpty org) then
    ⟨some (applyOrgContext s (orEmpty org)), some (orEmpty org), some org⟩
  else { r with holder := some org }

def invalidate (r : ConnectionRecord) : ConnectionRecord :=
  { r with connection := none, holder := none }

end ConnectionRecord

inductive Action
  | connected
  | checkedOut (org : Option String)
  | localSet (v : String)
  | committed
  | rolledBack
  | returned
  | invalidated

/-- The pool rolls a connection back when it is returned. A checkout whose statements fail leaves
an invalidated connection. -/
inductive RecordStep : ConnectionRecord → Action → ConnectionRecord → Prop
  | connected {r : ConnectionRecord} (hnone : r.connection = none) :
      RecordStep r .connected r.onConnect
  | checkedOut {r : ConnectionRecord} {s : OrgSetting} {org : Option String}
      (hs : r.connection = some s) (hfree : r.holder = none) :
      RecordStep r (.checkedOut org) (r.onCheckout s org)
  | localSet {r : ConnectionRecord} {s : OrgSetting} {org : Option String} {v : String}
      (hs : r.connection = some s) (hheld : r.holder = some org) :
      RecordStep r (.localSet v) { r with connection := some (s.setLocal v) }
  | committed {r : ConnectionRecord} {s : OrgSetting} {org : Option String}
      (hs : r.connection = some s) (hheld : r.holder = some org) :
      RecordStep r .committed { r with connection := some s.commit }
  | rolledBack {r : ConnectionRecord} {s : OrgSetting} {org : Option String}
      (hs : r.connection = some s) (hheld : r.holder = some org) :
      RecordStep r .rolledBack { r with connection := some s.rollback }
  | returned {r : ConnectionRecord} {s : OrgSetting} {org : Option String}
      (hs : r.connection = some s) (hheld : r.holder = some org) :
      RecordStep r .returned { r with connection := some s.rollback, holder := none }
  | invalidated {r : ConnectionRecord} : RecordStep r .invalidated r.invalidate

variable {ι : Type} [DecidableEq ι]

abbrev Pool (ι : Type) := ι → ConnectionRecord

def emptyPool : Pool ι := fun _ => ⟨none, none, none⟩

inductive Step : Pool ι → ι × Action → Pool ι → Prop
  | mk {p : Pool ι} {i : ι} {a : Action} {r : ConnectionRecord} (h : RecordStep (p i) a r) :
      Step p (i, a) (Function.update p i r)

end Pools

section Stamps

def Action.overrides : Action → Option String
  | .localSet v => some v
  | _ => none

/-- What the open transaction of a connection has set for itself. -/
def overrideAfter (as : List Action) : Option String := as.getLast?.bind Action.overrides

/-- The session has nothing but what is committed, which is what the record says, and this is the
organisation of the checkout. A connection that nobody holds has no transaction open. -/
structure Stamped (r : ConnectionRecord) (as : List Action) : Prop where
  session : ∀ s, r.connection = some s → s.session = none
  override : ∀ s, r.connection = some s → s.override = overrideAfter as
  idle : ∀ s, r.connection = some s → r.holder = none → s.override = none
  marked : ∀ s org, r.connection = some s → r.appOrg = some org → s.committed = org
  held : ∀ org, r.holder = some org → r.connection ≠ none ∧ r.appOrg = some (orEmpty org)

variable {r r' : ConnectionRecord} {as : List Action} {a : Action} {s : OrgSetting}
  {org : Option String}

theorem onCheckout_of_ne (h : r.appOrg ≠ some (orEmpty org)) : r.onCheckout s org =
    ⟨some (applyOrgContext s (orEmpty org)), some (orEmpty org), some org⟩ := if_pos h

theorem stamped_empty : Stamped ⟨none, none, none⟩ [] := by
  constructor <;> intros <;> contradiction

theorem overrideAfter_snoc : overrideAfter (as ++ [a]) = a.overrides := by
  rw [overrideAfter, List.getLast?_concat, Option.bind_some]

/-- A statement on a connection that leaves what is committed for the session. -/
theorem stamped_write {t : OrgSetting} {holder : Option (Option String)} (h : Stamped r as)
    (hs : r.connection = some s) (hholder : holder = r.holder ∨ holder = none)
    (hsession : t.session = none) (hcommitted : t.committed = s.committed)
    (hoverride : t.override = a.overrides) (hidle : holder = none → t.override = none) :
    Stamped ⟨some t, r.appOrg, holder⟩ (as ++ [a]) := by
  refine ⟨?_, ?_, ?_, ?_, ?_⟩
  · rintro _ ⟨⟩
    exact hsession
  · rintro _ ⟨⟩
    rw [overrideAfter_snoc]
    exact hoverride
  · rintro _ ⟨⟩ hnone
    exact hidle hnone
  · rintro _ org ⟨⟩ hmarker
    rw [hcommitted]
    exact h.marked s org hs hmarker
  · rintro org hheld
    rcases hholder with rfl | rfl
    · exact ⟨nofun, (h.held org hheld).2⟩
    · cases hheld

theorem stamped_step (h : Stamped r as) (hstep : RecordStep r a r') : Stamped r' (as ++ [a]) := by
  cases hstep with
  | connected hnone =>
      refine ⟨?_, ?_, ?_, ?_, ?_⟩
      · rintro s ⟨⟩
        rfl
      · rintro s ⟨⟩
        rw [overrideAfter_snoc]
        rfl
      · rintro s ⟨⟩ _
        rfl
      · rintro s org _ ⟨⟩
      · intro org hheld
        exact absurd hnone (h.held org hheld).1
  | @checkedOut s org hs hfree =>
      by_cases hmarker : r.appOrg = some (orEmpty org)
      · have hsame : r.onCheckout s org = { r with holder := some org } :=
          if_neg (not_not.mpr hmarker)
        rw [hsame]
        refine ⟨h.session, fun t ht => ?_, fun _ _ => nofun, h.marked, ?_⟩
        · rw [overrideAfter_snoc, h.idle t ht hfree]
          rfl
        · rintro _ ⟨⟩
          exact ⟨by simp [hs], hmarker⟩
      · rw [onCheckout_of_ne hmarker]
        refine ⟨?_, ?_, ?_, ?_, ?_⟩
        · rintro _ ⟨⟩
          rfl
        · rintro _ ⟨⟩
          rw [overrideAfter_snoc]
          rfl
        · rintro _ _ ⟨⟩
        · rintro _ _ ⟨⟩ ⟨⟩
          rfl
        · rintro _ ⟨⟩
          exact ⟨nofun, rfl⟩
  | @localSet s org v hs hheld =>
      refine stamped_write h hs (Or.inl rfl) (h.session s hs) rfl rfl fun hnone => ?_
      cases hheld.symm.trans hnone
  | committed hs hheld =>
      exact stamped_write h hs (Or.inl rfl) rfl (by simp [OrgSetting.commit, h.session _ hs]) rfl
        fun _ => rfl
  | rolledBack hs hheld => exact stamped_write h hs (Or.inl rfl) rfl rfl rfl fun _ => rfl
  | returned hs hheld => exact stamped_write h hs (Or.inr rfl) rfl rfl rfl fun _ => rfl
  | invalidated =>
      refine ⟨?_, ?_, ?_, ?_, ?_⟩
      · rintro s ⟨⟩
      · rintro s ⟨⟩
      · rintro s ⟨⟩
      · rintro s org ⟨⟩
      · rintro org ⟨⟩

end Stamps

section Runs

variable {ι : Type} [DecidableEq ι] {p q : Pool ι} {i : ι} {es : List (ι × Action)}

/-- What happens to one connection in a run. -/
def actionsOf (i : ι) (es : List (ι × Action)) : List Action :=
  (es.filter (fun e => e.1 = i)).map Prod.snd

theorem pool_stamped_step {e : ι × Action} (h : ∀ i, Stamped (p i) (actionsOf i es))
    (hstep : Step p e q) : ∀ i, Stamped (q i) (actionsOf i (es ++ [e])) := by
  cases hstep with
  | @mk j a r hrecord =>
      intro i
      by_cases hi : i = j
      · subst hi
        have hactions : actionsOf i (es ++ [(i, a)]) = actionsOf i es ++ [a] := by simp [actionsOf]
        rw [Function.update_self, hactions]
        exact stamped_step (h i) hrecord
      · have hactions : actionsOf i (es ++ [(j, a)]) = actionsOf i es := by
          simp [actionsOf, Ne.symm hi]
        rw [Function.update_of_ne hi, hactions]
        exact h i

/-- In every run of the pool a connection that is checked out has the organisation that was
current at its checkout, but for what its own transaction has set with `SET LOCAL`. -/
theorem checked_out_value {s : OrgSetting} {org : Option String}
    (h : Run Step (emptyPool : Pool ι) es p) (hs : (p i).connection = some s)
    (hheld : (p i).holder = some org) :
    s.value = (overrideAfter (actionsOf i es)).getD (orEmpty org) := by
  have hstamped := h.history (T := fun (p : Pool ι) es => ∀ i, Stamped (p i) (actionsOf i es))
    (fun _ _ _ _ => pool_stamped_step) [] fun _ => stamped_empty
  have hi := hstamped i
  rw [OrgSetting.value, hi.override s hs, hi.session s hs, Option.getD_none,
    hi.marked s _ hs (hi.held org hheld).2]
  rfl

end Runs

section Fixtures

/-- A pool of one connection follows its record. -/
theorem record_run {r r' : ConnectionRecord} {as : List Action} (h : Run RecordStep r as r') :
    Run Step (fun _ : Unit => r) (as.map fun a => ((), a)) fun _ => r' := by
  induction h with
  | nil r => exact .nil _
  | @cons r r₁ r₂ a as hstep _ ih =>
      have hupdate : Function.update (fun _ : Unit => r) () r₁ = fun _ => r₁ :=
        funext fun _ => Function.update_self ..
      exact .cons (hupdate ▸ .mk hstep) ih

theorem checkout_run {r : ConnectionRecord} {s : OrgSetting} {org : Option String}
    (hs : r.connection = some s) (hfree : r.holder = none) (hne : r.appOrg ≠ some (orEmpty org)) :
    Run RecordStep r [.checkedOut org]
      ⟨some (applyOrgContext s (orEmpty org)), some (orEmpty org), some org⟩ :=
  .single (onCheckout_of_ne hne ▸ .checkedOut hs hfree)

/-- A connection that is used for two organisations in turn, and rolled back by the second. -/
theorem two_orgs_value : ∃ es p, Run Step (emptyPool : Pool Unit) es p ∧ ∃ s,
    (p ()).connection = some s ∧ (p ()).holder = some (some "org-2") ∧ s.value = "org-2" := by
  have hconnect : Run RecordStep ⟨none, none, none⟩ [.connected] ⟨some .fresh, none, none⟩ :=
    .single (.connected rfl)
  have hfirst := hconnect.append (@checkout_run _ _ (some "org-1") rfl rfl nofun)
  have hsecond := (hfirst.snoc (.returned rfl rfl)).append
    (@checkout_run _ _ (some "org-2") rfl rfl (by decide))
  have hrun := (hsecond.snoc (.localSet (v := "org-3") rfl rfl)).snoc (.rolledBack rfl rfl)
  exact ⟨_, _, record_run hrun, _, rfl, rfl, checked_out_value (i := ()) (record_run hrun) rfl rfl⟩

/-- A caller without an organisation sets one for its transaction. -/
theorem local_value : ∃ es p, Run Step (emptyPool : Pool Unit) es p ∧ ∃ s,
    (p ()).connection = some s ∧ (p ()).holder = some none ∧ s.value ≠ orEmpty none := by
  have hconnect : Run RecordStep ⟨none, none, none⟩ [.connected] ⟨some .fresh, none, none⟩ :=
    .single (.connected rfl)
  have hrun := (hconnect.append (@checkout_run _ _ none rfl rfl nofun)).snoc
    (.localSet (v := "org-1") rfl rfl)
  exact ⟨_, _, record_run hrun, _, rfl, rfl, by decide⟩

end Fixtures

end RfpPlatform.PooledConnections
