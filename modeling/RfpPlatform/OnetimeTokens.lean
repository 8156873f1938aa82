import RfpPlatform.AccountRequests
import RfpPlatform.TransitionRuns
import Mathlib.Data.List.Flatten

namespace RfpPlatform.OnetimeTokens

open AccountRequests (Draw OnetimeToken Purpose inviteTtlHours)
open TransitionRuns

section Tokens

def resetTtlHours : Nat := 1

structure TokenRequest where
  purpose : Purpose
  email : String
  orgId : Option String := none
  role : Option String := none
  deptId : Option String := none
  userId : Option String := none
  ttlHours : Option Nat := none

/-- `NULLIF(:value, '')` -/
def nullif (value : Option String) : Option String := value.filter (fun s => s ≠ "")

def TokenRequest.ttl (req : TokenRequest) : Nat :=
  req.ttlHours.getD (if req.purpose = .invite then inviteTtlHours else resetTtlHours)

def TokenRequest.row (sha256 : String → String) (draw : Draw) (req : TokenRequest) : OnetimeToken :=
  ⟨sha256 draw.plaintext, req.purpose, req.email, nullif req.orgId, req.role, nullif req.deptId,
    nullif req.userId, draw.now + req.ttl * 60, none⟩

/-- `WHERE purpose = :purpose AND email = :email AND used_at IS NULL` -/
def Superseded (row t : OnetimeToken) : Bool :=
  t.purpose = row.purpose && t.email = row.email && t.usedAt.isNone

/-- `UPDATE auth_onetime_tokens SET used_at = now()` on the rows that a transaction has locked. -/
def spendAll (start : Nat) (hashes : List String) (tokens : KeyedTable OnetimeToken.tokenHash) :
    KeyedTable OnetimeToken.tokenHash :=
  tokens.updateWhere (fun t => t.tokenHash ∈ hashes) (fun t => { t with usedAt := some start })
    (fun _ => rfl)

def Live (now : Nat) (t : OnetimeToken) : Prop := t.usedAt = none ∧ now < t.expiresAt

end Tokens

section Transactions

/-- `create_onetime_token` in its transaction: the rows that its `UPDATE` has found, those of them
that it has not come to yet and those it has stamped, and whether its row is inserted. -/
structure CreateTxn where
  row : OnetimeToken
  unused : row.usedAt = none
  start : Nat
  found : List String
  pending : List String
  stamped : List String
  inserted : Bool

/-- The `UPDATE` of a create has its snapshot and no row yet. -/
def scan (tokens : KeyedTable OnetimeToken.tokenHash) (now : Nat) (row : OnetimeToken)
    (h : row.usedAt = none) : CreateTxn :=
  let found := (tokens.rows.filter (Superseded row)).map OnetimeToken.tokenHash
  ⟨row, h, now, found, found, [], false⟩

/-- `consume_token` in its transaction, after its `UPDATE`. -/
structure ConsumeTxn where
  tokenHash : String
  start : Nat

inductive Txn
  | create (t : CreateTxn)
  | consume (t : ConsumeTxn)

/-- The rows that a transaction holds until it ends. -/
def Txn.locks : Txn → List String
  | create t => t.stamped
  | consume t => [t.tokenHash]

/-- The committed rows, the transactions in progress, and the tokens redeemed so far. -/
structure World where
  tokens : KeyedTable OnetimeToken.tokenHash
  txns : List Txn
  now : Nat
  redeemed : List String

def World.start (now : Nat) : World := ⟨∅, [], now, []⟩

def World.locked (w : World) : List String := w.txns.flatMap Txn.locks

inductive Event
  | createScanned (draw : Draw) (req : TokenRequest)
  | rowVisited (t : CreateTxn) (tokenHash : String)
  | rowInserted (t : CreateTxn)
  | createCommitted (t : CreateTxn)
  | tokenStamped (plaintext : String) (purpose : Purpose) (start : Nat)
  | consumeCommitted (t : ConsumeTxn)
  | aborted (t : Txn)
  | ticked (now : Nat)

variable (sha256 : String → String)

/-- A statement reads what is committed when it begins. Its `UPDATE` comes to one row after the
other, waits while another transaction holds the row, and stamps it if it is still unused then. -/
inductive Step : World → Event → World → Prop
  | createScanned {w : World} {draw : Draw} {req : TokenRequest} :
      Step w (.createScanned draw req)
        { w with txns := .create (scan w.tokens w.now (req.row sha256 draw) rfl) :: w.txns }
  | rowStamped {w : World} {t : CreateTxn} {before after : List Txn} {todo done : List String}
      {tokenHash : String} {r : OnetimeToken} (htxns : w.txns = before ++ .create t :: after)
      (hpending : t.pending = done ++ tokenHash :: todo) (hfree : tokenHash ∉ w.locked)
      (hrow : w.tokens.lookup tokenHash = some r) (hunused : r.usedAt = none) :
      Step w (.rowVisited t tokenHash)
        { w with
          txns := before ++ .create { t with
            pending := done ++ todo
            stamped := tokenHash :: t.stamped } :: after }
  | rowSkipped {w : World} {t : CreateTxn} {before after : List Txn} {todo done : List String}
      {tokenHash : String} {r : OnetimeToken} (htxns : w.txns = before ++ .create t :: after)
      (hpending : t.pending = done ++ tokenHash :: todo) (hfree : tokenHash ∉ w.locked)
      (hrow : w.tokens.lookup tokenHash = some r) (hused : r.usedAt ≠ none) :
      Step w (.rowVisited t tokenHash)
        { w with txns := before ++ .create { t with pending := done ++ todo } :: after }
  | rowInserted {w : World} {t : CreateTxn} {before after : List Txn}
      (htxns : w.txns = before ++ .create t :: after) (hpending : t.pending = []) :
      Step w (.rowInserted t)
        { w with txns := before ++ .create { t with inserted := true } :: after }
  | createCommitted {w : World} {t : CreateTxn} {before after : List Txn}
      {tokens : KeyedTable OnetimeToken.tokenHash} (htxns : w.txns = before ++ .create t :: after)
      (hinserted : t.inserted = true)
      (htokens : (spendAll t.start t.stamped w.tokens).insert? t.row = some tokens) :
      Step w (.createCommitted t) { w with tokens := tokens, txns := before ++ after }
  | tokenStamped {w : World} {plaintext : String} {purpose : Purpose} {start : Nat}
      {r : OnetimeToken} (hplaintext : plaintext ≠ "") (hstart : start ≤ w.now)
      (hfree : sha256 plaintext ∉ w.locked) (hrow : w.tokens.lookup (sha256 plaintext) = some r)
      (hpurpose : r.purpose = purpose) (hunused : r.usedAt = none) (hlive : start < r.expiresAt) :
      Step w (.tokenStamped plaintext purpose start)
        { w with txns := .consume ⟨sha256 plaintext, start⟩ :: w.txns }
  | consumeCommitted {w : World} {t : ConsumeTxn} {before after : List Txn}
      (htxns : w.txns = before ++ .consume t :: after) :
      Step w (.consumeCommitted t)
        { w with
          tokens := spendAll t.start [t.tokenHash] w.tokens
          txns := before ++ after
          redeemed := t.tokenHash :: w.redeemed }
  | aborted {w : World} {t : Txn} {before after : List Txn}
      (htxns : w.txns = before ++ t :: after) :
      Step w (.aborted t) { w with txns := before ++ after }
  | ticked {w : World} {now : Nat} (hnow : w.now ≤ now) : Step w (.ticked now) { w with now := now }

end Transactions

section Laws

/-- Each token is redeemed at most once, and no two tokens of one purpose and email are live. -/
structure Lawful (w : World) : Prop where
  redeemed : w.redeemed.Nodup
  unique : ∀ r ∈ w.tokens, ∀ s ∈ w.tokens, Live w.now r → Live w.now s →
    r.purpose = s.purpose → r.email = s.email → r = s

/-- A token that is live when it is committed finds no live token of its purpose and email but those
that were committed before its transaction looked for them. -/
def Admits (w : World) : Event → Prop
  | .createCommitted t => w.now < t.row.expiresAt → ∀ r ∈ w.tokens, Live w.now r →
      r.purpose = t.row.purpose → r.email = t.row.email → r.tokenHash ∈ t.found
  | _ => True

end Laws

section Rows

variable {tokens tokens' : KeyedTable OnetimeToken.tokenHash} {hashes : List String}
  {h : String} {start now : Nat} {r s : OnetimeToken}

def UsedIn (tokens : KeyedTable OnetimeToken.tokenHash) (h : String) : Prop :=
  ∃ r ∈ tokens, r.tokenHash = h ∧ r.usedAt ≠ none

def UnusedIn (tokens : KeyedTable OnetimeToken.tokenHash) (h : String) : Prop :=
  ∃ r ∈ tokens, r.tokenHash = h ∧ r.usedAt = none

theorem UsedIn.not_unusedIn (hused : UsedIn tokens h) : ¬ UnusedIn tokens h := by
  obtain ⟨r, hr, rfl, hstamp⟩ := hused
  rintro ⟨s, hs, hkey, hnone⟩
  obtain rfl : s = r := KeyedTable.eq_of_key_eq hs hr hkey
  exact hstamp hnone

theorem mem_spendAll : s ∈ spendAll start hashes tokens ↔ ∃ r ∈ tokens,
    (if decide (r.tokenHash ∈ hashes) = true then { r with usedAt := some start } else r) = s :=
  List.mem_map

theorem mem_spendAll_of_not_mem (hr : r ∈ tokens) (hh : r.tokenHash ∉ hashes) :
    r ∈ spendAll start hashes tokens :=
  mem_spendAll.mpr ⟨r, hr, if_neg (by simpa using hh)⟩

theorem mem_spendAll_unused (hs : s ∈ spendAll start hashes tokens) (hnone : s.usedAt = none) :
    s ∈ tokens ∧ s.tokenHash ∉ hashes := by
  obtain ⟨r, hr, rfl⟩ := mem_spendAll.mp hs
  split at hnone
  · cases hnone
  · rename_i hh
    rw [if_neg hh]
    exact ⟨hr, by simpa using hh⟩

theorem UsedIn.spendAll (hused : UsedIn tokens h) : UsedIn (spendAll start hashes tokens) h := by
  obtain ⟨r, hr, rfl, hstamp⟩ := hused
  by_cases hh : r.tokenHash ∈ hashes
  · exact ⟨_, mem_spendAll.mpr ⟨r, hr, if_pos (decide_eq_true hh)⟩, rfl, nofun⟩
  · exact ⟨r, mem_spendAll_of_not_mem hr hh, rfl, hstamp⟩

theorem usedIn_spendAll_of_mem (hrow : UnusedIn tokens h) (hh : h ∈ hashes) :
    UsedIn (spendAll start hashes tokens) h := by
  obtain ⟨r, hr, rfl, _⟩ := hrow
  exact ⟨_, mem_spendAll.mpr ⟨r, hr, if_pos (decide_eq_true hh)⟩, rfl, nofun⟩

theorem UnusedIn.spendAll (hrow : UnusedIn tokens h) (hh : h ∉ hashes) :
    UnusedIn (spendAll start hashes tokens) h := by
  obtain ⟨r, hr, rfl, hnone⟩ := hrow
  exact ⟨r, mem_spendAll_of_not_mem hr hh, rfl, hnone⟩

theorem UsedIn.insert {t : OnetimeToken} (hused : UsedIn tokens h)
    (hinsert : tokens.insert? t = some tokens') : UsedIn tokens' h := by
  obtain ⟨r, hr, hkey, hstamp⟩ := hused
  exact ⟨r, (KeyedTable.mem_of_insert? hinsert r).mpr (Or.inl hr), hkey, hstamp⟩

theorem UnusedIn.insert {t : OnetimeToken} (hrow : UnusedIn tokens h)
    (hinsert : tokens.insert? t = some tokens') : UnusedIn tokens' h := by
  obtain ⟨r, hr, hkey, hnone⟩ := hrow
  exact ⟨r, (KeyedTable.mem_of_insert? hinsert r).mpr (Or.inl hr), hkey, hnone⟩

theorem unusedIn_of_lookup (hrow : tokens.lookup h = some r) (hnone : r.usedAt = none) :
    UnusedIn tokens h := by
  obtain ⟨hr, hkey⟩ := KeyedTable.lookup_eq_some.mp hrow
  exact ⟨r, hr, hkey, hnone⟩

end Rows

section Locks

variable {w : World} {before after : List Txn} {x y : Txn} {t : CreateTxn}
  {tokens : KeyedTable OnetimeToken.tokenHash} {redeemed : List String}

/-- What the `UPDATE` of a create has found is still to come, stamped, or used by now. -/
structure Accounted (t : CreateTxn) (tokens : KeyedTable OnetimeToken.tokenHash) : Prop where
  pending : t.pending ⊆ t.found
  stamped : t.stamped ⊆ t.found
  found : ∀ h ∈ t.found, h ∈ t.pending ∨ h ∈ t.stamped ∨ UsedIn tokens h
  inserted : t.inserted = true → t.pending = []

/-- No two transactions hold one row, a row that is held is unused, and a token that is redeemed is
used. -/
structure Consistent (w : World) : Prop where
  locks : w.locked.Nodup
  unused : ∀ h ∈ w.locked, UnusedIn w.tokens h
  redeemed : w.redeemed.Nodup
  spent : ∀ h ∈ w.redeemed, UsedIn w.tokens h
  creates : ∀ t, .create t ∈ w.txns → Accounted t w.tokens

theorem Accounted.mono (h : Accounted t tokens) {tokens' : KeyedTable OnetimeToken.tokenHash}
    (hused : ∀ k, UsedIn tokens k → UsedIn tokens' k) : Accounted t tokens' :=
  ⟨h.pending, h.stamped, fun k hk => (h.found k hk).imp_right (Or.imp_right (hused k)), h.inserted⟩

theorem flatMap_locks_perm :
    ((before ++ x :: after).flatMap Txn.locks).Perm
      (x.locks ++ (before ++ after).flatMap Txn.locks) := by
  rw [← List.flatMap_cons]
  exact List.perm_middle.flatMap_right Txn.locks

/-- A statement that changes one transaction and nothing that is committed. -/
theorem Consistent.put (h : Consistent w) (hrest : (before ++ after).Sublist w.txns)
    (hnodup : y.locks.Nodup)
    (hfree : ∀ k ∈ y.locks, k ∉ (before ++ after).flatMap Txn.locks)
    (hunused : ∀ k ∈ y.locks, UnusedIn w.tokens k)
    (hcreate : ∀ t, y = .create t → Accounted t w.tokens) :
    Consistent { w with txns := before ++ y :: after } := by
  have hsub : ((before ++ after).flatMap Txn.locks).Sublist w.locked := hrest.flatMap Txn.locks
  refine ⟨?_, ?_, h.redeemed, h.spent, ?_⟩
  · refine flatMap_locks_perm.nodup_iff.mpr ?_
    exact List.nodup_append'.mpr ⟨hnodup, h.locks.sublist hsub, hfree⟩
  · intro k hk
    rcases List.mem_append.mp (flatMap_locks_perm.mem_iff.mp hk) with hown | hother
    · exact hunused k hown
    · exact h.unused k (hsub.subset hother)
  · intro t ht
    rcases List.mem_cons.mp (List.perm_middle.mem_iff.mp ht) with heq | hother
    · exact hcreate t heq.symm
    · exact h.creates t (hrest.subset hother)

/-- The end of a transaction, which may use the rows that it holds. -/
theorem Consistent.leave (h : Consistent w) (htxns : w.txns = before ++ x :: after)
    (hused : ∀ k, UsedIn w.tokens k → UsedIn tokens k)
    (hunused : ∀ k, k ∉ x.locks → UnusedIn w.tokens k → UnusedIn tokens k)
    (hnodup : redeemed.Nodup) (hspent : ∀ k ∈ redeemed, UsedIn tokens k) :
    Consistent { w with tokens := tokens, txns := before ++ after, redeemed := redeemed } := by
  have hperm : w.locked.Perm (x.locks ++ (before ++ after).flatMap Txn.locks) := by
    rw [World.locked, htxns]
    exact flatMap_locks_perm
  obtain ⟨_, hrest, hdisjoint⟩ := List.nodup_append'.mp (hperm.nodup_iff.mp h.locks)
  refine ⟨hrest, ?_, hnodup, hspent, ?_⟩
  · intro k hk
    exact hunused k (fun hx => hdisjoint hx hk)
      (h.unused k (hperm.mem_iff.mpr (List.mem_append_right _ hk)))
  · intro t ht
    have hmem : Txn.create t ∈ w.txns := by
      rw [htxns]
      exact List.perm_middle.mem_iff.mpr (List.mem_cons_of_mem x ht)
    exact (h.creates t hmem).mono hused

theorem accounted_scan {now : Nat} {row : OnetimeToken} (hrow : row.usedAt = none) :
    Accounted (scan tokens now row hrow) tokens :=
  ⟨List.Subset.refl _, List.nil_subset _, fun _ => Or.inl, nofun⟩

/-- A visit of a row takes it from those to come. -/
theorem Accounted.visit (h : Accounted t tokens) {done todo : List String} {k : String}
    (hpending : t.pending = done ++ k :: todo) {stamped : List String}
    (hstamped : stamped = t.stamped ∧ UsedIn tokens k ∨ stamped = k :: t.stamped) :
    Accounted { t with pending := done ++ todo, stamped := stamped } tokens := by
  have hmem (j : String) : j ∈ t.pending ↔ j = k ∨ j ∈ done ++ todo := by
    rw [hpending]
    exact List.perm_middle.mem_iff.trans List.mem_cons
  refine ⟨fun j hj => h.pending ((hmem j).mpr (Or.inr hj)), ?_, ?_, ?_⟩
  · rcases hstamped with ⟨rfl, _⟩ | rfl
    · exact h.stamped
    · exact List.cons_subset.mpr ⟨h.pending ((hmem k).mpr (Or.inl rfl)), h.stamped⟩
  · intro j hj
    change j ∈ done ++ todo ∨ j ∈ stamped ∨ UsedIn tokens j
    rcases h.found j hj with hp | hs | hused
    · rcases (hmem j).mp hp with rfl | hrest
      · rcases hstamped with ⟨_, hused⟩ | rfl
        · exact Or.inr (Or.inr hused)
        · exact Or.inr (Or.inl List.mem_cons_self)
      · exact Or.inl hrest
    · rcases hstamped with ⟨rfl, _⟩ | rfl
      · exact Or.inr (Or.inl hs)
      · exact Or.inr (Or.inl (List.mem_cons_of_mem k hs))
    · exact Or.inr (Or.inr hused)
  · intro hinserted
    have hnone := (h.inserted hinserted).symm.trans hpending
    cases done <;> cases hnone

theorem Consistent.accounted (h : Consistent w) (htxns : w.txns = before ++ .create t :: after) :
    Accounted t w.tokens :=
  h.creates t (htxns ▸ List.mem_append_right _ List.mem_cons_self)

theorem Consistent.held (h : Consistent w) (htxns : w.txns = before ++ x :: after) :
    x.locks.Nodup ∧ (∀ k ∈ x.locks, k ∉ (before ++ after).flatMap Txn.locks) ∧
      ∀ k ∈ x.locks, UnusedIn w.tokens k := by
  have hperm : w.locked.Perm (x.locks ++ (before ++ after).flatMap Txn.locks) := by
    rw [World.locked, htxns]
    exact flatMap_locks_perm
  obtain ⟨hown, _, hdisjoint⟩ := List.nodup_append'.mp (hperm.nodup_iff.mp h.locks)
  exact ⟨hown, hdisjoint, fun k hk => h.unused k (hperm.mem_iff.mpr (List.mem_append_left _ hk))⟩

end Locks

section Runs

variable {sha256 : String → String} {w w' : World} {e : Event}

theorem rest_sublist {before after : List Txn} {x : Txn} (htxns : w.txns = before ++ x :: after) :
    (before ++ after).Sublist w.txns := by
  rw [htxns]
  exact (List.sublist_cons_self x after).append_left before

theorem mem_locked_of_rest {before after : List Txn} {x : Txn}
    (htxns : w.txns = before ++ x :: after) {k : String}
    (hk : k ∈ (before ++ after).flatMap Txn.locks) : k ∈ w.locked :=
  ((rest_sublist htxns).flatMap Txn.locks).subset hk

theorem consistent_preserved : Preserved (Step sha256) Consistent := by
  intro w e w' h hstep
  cases hstep with
  | createScanned =>
      have hrest : ([] ++ w.txns).Sublist w.txns := List.Sublist.refl _
      refine Consistent.put h hrest List.nodup_nil nofun nofun ?_
      rintro t ⟨⟩
      exact accounted_scan rfl
  | @rowStamped t before after todo done tokenHash r htxns hpending hfree hrow hunused =>
      obtain ⟨hnodup, hdisjoint, hrows⟩ := h.held htxns
      have hown : tokenHash ∉ t.stamped := fun hmem => hfree <| by
        rw [World.locked, htxns]
        exact flatMap_locks_perm.mem_iff.mpr (List.mem_append_left _ hmem)
      refine h.put (rest_sublist htxns) (List.nodup_cons.mpr ⟨hown, hnodup⟩) ?_ ?_ ?_
      · exact List.forall_mem_cons.mpr
          ⟨fun hmem => hfree (mem_locked_of_rest htxns hmem), hdisjoint⟩
      · exact List.forall_mem_cons.mpr ⟨unusedIn_of_lookup hrow hunused, hrows⟩
      · rintro t ⟨⟩
        exact (h.accounted htxns).visit hpending (Or.inr rfl)
  | @rowSkipped t before after todo done tokenHash r htxns hpending hfree hrow hused =>
      obtain ⟨hnodup, hdisjoint, hrows⟩ := h.held htxns
      obtain ⟨hr, hkey⟩ := KeyedTable.lookup_eq_some.mp hrow
      refine h.put (rest_sublist htxns) hnodup hdisjoint hrows ?_
      rintro t ⟨⟩
      exact (h.accounted htxns).visit hpending (Or.inl ⟨rfl, r, hr, hkey, hused⟩)
  | @rowInserted t before after htxns hpending =>
      obtain ⟨hnodup, hdisjoint, hrows⟩ := h.held htxns
      refine h.put (rest_sublist htxns) hnodup hdisjoint hrows ?_
      rintro t ⟨⟩
      have ht := h.accounted htxns
      exact ⟨ht.pending, ht.stamped, ht.found, fun _ => hpending⟩
  | createCommitted htxns hinserted htokens =>
      have hused : ∀ k, UsedIn w.tokens k → UsedIn _ k := fun k hk => hk.spendAll.insert htokens
      exact h.leave htxns hused (fun k hk hrow => (hrow.spendAll hk).insert htokens) h.redeemed
        fun k hk => hused k (h.spent k hk)
  | tokenStamped hplaintext hstart hfree hrow hpurpose hunused hlive =>
      have hrest : ([] ++ w.txns).Sublist w.txns := List.Sublist.refl _
      refine Consistent.put h hrest (List.nodup_singleton _) ?_ ?_ ?_
      · exact List.forall_mem_singleton.mpr hfree
      · exact List.forall_mem_singleton.mpr (unusedIn_of_lookup hrow hunused)
      · rintro t ⟨⟩
  | @consumeCommitted t before after htxns =>
      have hrow : UnusedIn w.tokens t.tokenHash := (h.held htxns).2.2 _ (List.mem_singleton_self _)
      refine h.leave htxns (fun k => UsedIn.spendAll) (fun k hk hrow => hrow.spendAll hk) ?_ ?_
      · exact List.nodup_cons.mpr ⟨fun hmem => (h.spent _ hmem).not_unusedIn hrow, h.redeemed⟩
      · exact List.forall_mem_cons.mpr
          ⟨usedIn_spendAll_of_mem hrow (List.mem_singleton_self _),
            fun k hk => (h.spent k hk).spendAll⟩
  | aborted htxns => exact h.leave htxns (fun _ => id) (fun _ _ => id) h.redeemed h.spent
  | ticked => exact ⟨h.locks, h.unused, h.redeemed, h.spent, h.creates⟩

theorem consistent_start (now : Nat) : Consistent (.start now) :=
  ⟨List.nodup_nil, nofun, List.nodup_nil, nofun, nofun⟩

/-- In every run each token is redeemed at most once. -/
theorem redeemed_nodup {now : Nat} {es : List Event} (h : Run (Step sha256) (.start now) es w) :
    w.redeemed.Nodup := (h.invariant consistent_preserved (consistent_start now)).redeemed

/-- A commit keeps one live token for a purpose and an email exactly if the token it adds finds no
other that it has not spent. -/
theorem unique_createCommitted_iff {t : CreateTxn} {before after : List Txn}
    {tokens : KeyedTable OnetimeToken.tokenHash} {now : Nat} (h : Consistent w)
    (hunique : ∀ r ∈ w.tokens, ∀ s ∈ w.tokens, Live now r → Live now s →
      r.purpose = s.purpose → r.email = s.email → r = s)
    (htxns : w.txns = before ++ .create t :: after) (hinserted : t.inserted = true)
    (htokens : (spendAll t.start t.stamped w.tokens).insert? t.row = some tokens) :
    (∀ r ∈ tokens, ∀ s ∈ tokens, Live now r → Live now s →
      r.purpose = s.purpose → r.email = s.email → r = s) ↔
      (now < t.row.expiresAt → ∀ r ∈ w.tokens, Live now r → r.purpose = t.row.purpose →
        r.email = t.row.email → r.tokenHash ∈ t.found) := by
  have ht := h.accounted htxns
  have hmem (s : OnetimeToken) : s ∈ tokens ↔ s ∈ spendAll t.start t.stamped w.tokens ∨ s = t.row :=
    KeyedTable.mem_of_insert? htokens s
  -- a live row of before that the transaction has not spent
  have hold {s : OnetimeToken} (hs : s ∈ spendAll t.start t.stamped w.tokens) (hlive : Live now s) :
      s ∈ w.tokens ∧ s.tokenHash ∉ t.stamped := mem_spendAll_unused hs hlive.1
  constructor
  · intro hcommit hlive r hr hrlive hpurpose hemail
    by_contra hfound
    have hkept : r ∈ spendAll t.start t.stamped w.tokens :=
      mem_spendAll_of_not_mem hr (fun hmem => hfound (ht.stamped hmem))
    have heq : r = t.row := hcommit r ((hmem r).mpr (Or.inl hkept)) t.row
      ((hmem t.row).mpr (Or.inr rfl)) hrlive ⟨t.unused, hlive⟩ hpurpose hemail
    exact KeyedTable.key_fresh_of_insert? htokens r hkept (congrArg OnetimeToken.tokenHash heq)
  · intro hadmits
    have hnew {s : OnetimeToken} (hs : s ∈ spendAll t.start t.stamped w.tokens)
        (hlive : Live now s) (hrow : Live now t.row) (hpurpose : s.purpose = t.row.purpose)
        (hemail : s.email = t.row.email) : False := by
      obtain ⟨hw, hstamped⟩ := hold hs hlive
      rcases ht.found _ (hadmits hrow.2 s hw hlive hpurpose hemail) with hp | hs | hused
      · rw [ht.inserted hinserted] at hp
        exact List.not_mem_nil hp
      · exact hstamped hs
      · exact hused.not_unusedIn ⟨s, hw, rfl, hlive.1⟩
    intro r hr s hs hrlive hslive hpurpose hemail
    rcases (hmem r).mp hr with hr | rfl
    · rcases (hmem s).mp hs with hs | rfl
      · exact hunique r (hold hr hrlive).1 s (hold hs hslive).1 hrlive hslive hpurpose hemail
      · exact (hnew hr hrlive hslive hpurpose hemail).elim
    · rcases (hmem s).mp hs with hs | rfl
      · exact (hnew hs hslive hrlive hpurpose.symm hemail.symm).elim
      · rfl

theorem step_lawful_iff (h : Consistent w) (hlaw : Lawful w) (hstep : Step sha256 w e w') :
    Lawful w' ↔ Admits w e := by
  have hredeemed : w'.redeemed.Nodup := (consistent_preserved w e w' h hstep).redeemed
  cases hstep with
  | createCommitted htxns hinserted htokens =>
      rw [Admits, ← unique_createCommitted_iff h hlaw.unique htxns hinserted htokens]
      exact ⟨Lawful.unique, fun hunique => ⟨hredeemed, hunique⟩⟩
  | consumeCommitted htxns =>
      refine iff_of_true ⟨hredeemed, fun r hr s hs hrlive hslive => ?_⟩ trivial
      exact hlaw.unique r (mem_spendAll_unused hr hrlive.1).1 s (mem_spendAll_unused hs hslive.1).1
        hrlive hslive
  | ticked hnow =>
      refine iff_of_true ⟨hredeemed, fun r hr s hs hrlive hslive => ?_⟩ trivial
      exact hlaw.unique r hr s hs ⟨hrlive.1, hnow.trans_lt hrlive.2⟩
        ⟨hslive.1, hnow.trans_lt hslive.2⟩
  | createScanned | rowStamped | rowSkipped | rowInserted | tokenStamped | aborted =>
      exact iff_of_true ⟨hlaw.redeemed, hlaw.unique⟩ trivial

/-- The runs whose commits of new tokens are all admitted are those in which no token is redeemed
twice and no two tokens of one purpose and email are ever live. -/
theorem lawful_iff_admitted (now : Nat) (es : List Event) (w : World) :
    Run (Guarded Admits (Step sha256)) (.start now) es w ↔
      Run (Into Lawful (Step sha256)) (.start now) es w :=
  guarded_iff_into_of_preserved consistent_preserved
    (fun _ _ _ hconsistent hlaw hstep => step_lawful_iff hconsistent hlaw hstep)
    (consistent_start now) ⟨List.nodup_nil, nofun⟩

end Runs

section Fixtures

def annsInvite : TokenRequest := { purpose := .invite, email := "ann@acme.com" }

def drawOf (plaintext : String) : Draw := ⟨0, "", "", "", plaintext⟩

/-- Two invitations of one email whose updates both run before either token is inserted. -/
theorem two_live_tokens : ∃ es w, Run (Step id) (.start 0) es w ∧ ¬ Lawful w := by
  let row (plaintext : String) : OnetimeToken := annsInvite.row id (drawOf plaintext)
  obtain ⟨first, hfirst⟩ := KeyedTable.exists_insert?
    (t := spendAll 0 [] ∅) (r := row "token-1") nofun
  have hrows : ∀ s ∈ spendAll 0 [] first, s = row "token-1" := by
    intro s hs
    obtain ⟨r, hr, rfl⟩ := mem_spendAll.mp hs
    rcases (KeyedTable.mem_of_insert? hfirst r).mp hr with hnone | rfl
    · cases hnone
    · rfl
  obtain ⟨second, hsecond⟩ := KeyedTable.exists_insert?
    (t := spendAll 0 [] first) (r := row "token-2") fun s hs => hrows s hs ▸ by decide
  have hone : Run (Step id) (.start 0) _ _ :=
    .single (@Step.createScanned id _ (drawOf "token-1") annsInvite)
  have htwo := hone.snoc (@Step.createScanned id _ (drawOf "token-2") annsInvite)
  have hinserted := htwo.snoc (@Step.rowInserted id _ _ [_] [] rfl rfl)
  have hcommitted := hinserted.snoc (@Step.createCommitted id _ _ [_] [] _ rfl rfl hfirst)
  have hlast := (hcommitted.snoc (@Step.rowInserted id _ _ [] [] rfl rfl)).snoc
    (@Step.createCommitted id _ _ [] [] _ rfl rfl hsecond)
  refine ⟨_, _, hlast, fun hlaw => ?_⟩
  have hmem (s : OnetimeToken) := KeyedTable.mem_of_insert? hsecond s
  have hkept : row "token-1" ∈ spendAll 0 [] first :=
    mem_spendAll_of_not_mem ((KeyedTable.mem_of_insert? hfirst _).mpr (Or.inr rfl)) List.not_mem_nil
  have hlive (plaintext : String) : Live 0 (row plaintext) :=
    ⟨rfl, (by decide : 0 < 0 + annsInvite.ttl * 60)⟩
  have heq := hlaw.unique _ ((hmem _).mpr (Or.inl hkept)) _ ((hmem _).mpr (Or.inr rfl))
    (hlive "token-1") (hlive "token-2") rfl rfl
  exact absurd (congrArg OnetimeToken.tokenHash heq) (by decide)

end Fixtures

end RfpPlatform.OnetimeTokens
