import Mathlib.Data.List.Basic
import Mathlib.Data.List.Forall2
import Mathlib.Data.List.ReduceOption
import Mathlib.Data.Option.Basic

/-! # Validation that collects its errors

A check returns a value whatever happens and pushes what it finds wrong; on the
side it may note items in tables that later checks look into. `Checks` says of a
check when it pushes nothing, and what its value is and what it has noted in that
case. It never reads what was pushed or noted before it, so that checks compose.
-/

namespace Gcit.Library.Validation

variable {ε σ ι α β : Type}

/-- The errors so far, and the tables filled on the side. -/
structure Pass (ε σ : Type) where
  errors : List ε
  tables : σ

abbrev Check (ε σ : Type) := StateM (Pass ε σ)

def push (e : ε) : Check ε σ Unit := modify fun p => { p with errors := p.errors ++ [e] }

def note (f : σ → σ) : Check ε σ Unit := modify fun p => { p with tables := f p.tables }

def noteIf (b : Bool) (f : σ → σ) : Check ε σ Unit := if b then note f else pure ()

def rejectIf (bad : Prop) [Decidable bad] (e : ε) : Check ε σ Unit :=
  if bad then push e else pure ()

def rejectSome (field : Option α) (e : α → ε) : Check ε σ Unit :=
  match field with
  | none => pure ()
  | some a => push (e a)

def onSome (field : Option α) (f : α → Check ε σ Unit) : Check ε σ Unit :=
  match field with
  | none => pure ()
  | some a => f a

def forEach (f : α → Check ε σ β) : List α → Check ε σ (List β)
  | [] => pure []
  | a :: as => do
    let b ← f a
    let bs ← forEach f as
    return b :: bs

def onField (field : Option α) (f : α → Check ε σ (Option β)) : Check ε σ (Option β) :=
  match field with
  | none => pure none
  | some a => f a

/-- The value of a field that has a default. -/
def Given (R : α → β → Prop) (field : Option α) (default_ value : β) : Prop :=
  match field with
  | none => value = default_
  | some a => R a value

theorem Given.of_rel {R : α → β → Prop} {field : Option α} {o : Option β} (default_ : β)
    (h : Option.Rel R field o) : Given R field default_ (o.getD default_) := by
  cases h with
  | none => rfl
  | some h => exact h

theorem Given.holds {R : α → β → Prop} {field : Option α} {default_ v : β} {good : β → Prop}
    (h : Given R field default_ v) (hR : ∀ a b, R a b → good b) (hdefault : good default_) :
    good v := by
  cases field with
  | none => exact h ▸ hdefault
  | some a => exact hR a v h

theorem rel_holds {R : α → β → Prop} {field : Option α} {o : Option β} {good : β → Prop}
    (h : Option.Rel R field o) (hR : ∀ a b, R a b → good b) (b : β) (hb : o = some b) :
    good b := by
  cases h with
  | none => cases hb
  | some h => exact Option.some.inj hb ▸ hR _ _ h

theorem forall₂_reduceOption {R : α → β → Prop} {as : List α} {out : List (Option β)}
    (h : List.Forall₂ (fun a o => ∃ b, o = some b ∧ R a b) as out) :
    List.Forall₂ R as out.reduceOption := by
  induction h with
  | nil => exact .nil
  | cons hd _ ih =>
    obtain ⟨b, rfl, hb⟩ := hd
    exact .cons hb ih

theorem exists_of_mem_right {R : α → β → Prop} {as : List α} {bs : List β}
    (h : List.Forall₂ R as bs) {b : β} (hb : b ∈ bs) : ∃ a ∈ as, R a b := by
  induction h with
  | nil => cases hb
  | @cons a b' as bs hr _ ih =>
    obtain rfl | hb := List.mem_cons.mp hb
    · exact ⟨a, List.mem_cons_self, hr⟩
    · obtain ⟨a', ha', hr'⟩ := ih hb
      exact ⟨a', List.mem_cons_of_mem a ha', hr'⟩

/-- What a check pushes when it is the only one to run. -/
def alone (t : σ) (c : Check ε σ α) : List ε := (c.run ⟨[], t⟩).2.errors

/-- What a check pushes does not depend on what was pushed or noted before. -/
def Appends (c : Check ε σ α) : Prop :=
  ∃ (v : α) (es : List ε) (g : σ → σ), ∀ p, c.run p = (v, ⟨p.errors ++ es, g p.tables⟩)

theorem alone_bind (t : σ) (c : Check ε σ α) {f : α → Check ε σ β} (hf : ∀ a, Appends (f a)) :
    ∃ a, alone t (c >>= f) = alone t c ++ alone t (f a) := by
  refine ⟨(c.run ⟨[], t⟩).1, ?_⟩
  have hbind : (c >>= f).run ⟨[], t⟩ = (f (c.run ⟨[], t⟩).1).run (c.run ⟨[], t⟩).2 := rfl
  obtain ⟨v, es, g, hrun⟩ := hf (c.run ⟨[], t⟩).1
  simp only [alone, hbind, hrun, List.nil_append]

/-- `c` pushes errors exactly if `valid` fails; if `valid` holds it notes `items` and its
value satisfies `gives`. -/
def Checks (record : σ → ι → σ) (c : Check ε σ α) (valid : Prop) (items : List ι)
    (gives : α → Prop) : Prop :=
  ∃ (v : α) (es : List ε) (is : List ι),
    (∀ p, c.run p = (v, ⟨p.errors ++ es, is.foldl record p.tables⟩)) ∧
    (es = [] ↔ valid) ∧ (valid → gives v ∧ is = items)

namespace Checks

variable {record : σ → ι → σ} {c : Check ε σ α} {f : α → Check ε σ β} {P Q : Prop}
  {is js : List ι} {M : α → Prop} {N : α → β → Prop}

theorem value (a : α) : Checks record (pure a : Check ε σ α) True [] (· = a) :=
  ⟨a, [], [], fun p => by simp [StateT.run_pure]; rfl, by simp, fun _ => ⟨rfl, rfl⟩⟩

theorem push (e : ε) : Checks record (push e) False [] fun _ => True :=
  ⟨(), [e], [], fun p => rfl, by simp, fun h => h.elim⟩

/-- One check after another. What the second one requires and notes may depend on the value
of the first only as long as the first one has pushed something. -/
theorem bindOn {R : α → Prop} {ks : α → List ι} (hc : Checks record c P is M)
    (hf : ∀ a, Checks record (f a) (R a) (ks a) (N a))
    (hR : P → ∀ a, M a → (R a ↔ Q) ∧ ks a = js) :
    Checks record (c >>= f) (P ∧ Q) (is ++ js) fun b => ∃ a, M a ∧ N a b := by
  obtain ⟨a, es, is', hrun, hes, hgives⟩ := hc
  obtain ⟨b, fs, js', hrun', hfs, hgives'⟩ := hf a
  refine ⟨b, es ++ fs, is' ++ js', ?_, ?_, ?_⟩
  · intro p
    have hbind : (c >>= f).run p = (f (c.run p).1).run (c.run p).2 := rfl
    rw [hbind, hrun, hrun', List.append_assoc, List.foldl_append]
  · rw [List.append_eq_nil_iff, hes, hfs]
    exact and_congr_right fun hP => (hR hP a (hgives hP).1).1
  · rintro ⟨hP, hQ⟩
    obtain ⟨ha, rfl⟩ := hgives hP
    obtain ⟨hiff, hks⟩ := hR hP a ha
    obtain ⟨hb, rfl⟩ := hgives' (hiff.mpr hQ)
    exact ⟨⟨a, ha, hb⟩, by rw [hks]⟩

theorem bind (hc : Checks record c P is M) (hf : ∀ a, Checks record (f a) Q js (N a)) :
    Checks record (c >>= f) (P ∧ Q) (is ++ js) fun b => ∃ a, M a ∧ N a b :=
  hc.bindOn hf fun _ _ _ => ⟨Iff.rfl, rfl⟩

theorem imp {M' : α → Prop} (h : Checks record c P is M) (hP : P ↔ Q)
    (hM : Q → (∀ a, M a → M' a) ∧ is = js) : Checks record c Q js M' := by
  obtain ⟨a, es, is', hrun, hes, hgives⟩ := h
  refine ⟨a, es, is', hrun, hes.trans hP, fun hQ => ?_⟩
  obtain ⟨ha, his⟩ := hgives (hP.mpr hQ)
  exact ⟨(hM hQ).1 a ha, his.trans (hM hQ).2⟩

theorem invalid {M' : α → Prop} (h : Checks record c P is M) (hP : ¬P) (hQ : ¬Q) :
    Checks record c Q js M' :=
  h.imp ⟨fun hp => (hP hp).elim, fun hq => (hQ hq).elim⟩ fun hq => (hQ hq).elim

theorem fails {M' : α → Prop} (e : ε) (a : α) (hQ : ¬Q) :
    Checks record (do Validation.push e; pure a) Q js M' :=
  ((push e).bind fun _ => value a).invalid (fun h => h.1) hQ

theorem returns {M' : α → Prop} {a : α} (hQ : Q) (ha : M' a) :
    Checks record (pure a : Check ε σ α) Q [] M' :=
  (value a).imp (iff_of_true trivial hQ) fun _ => ⟨fun _ h => h ▸ ha, rfl⟩

theorem rejectIf (bad : Prop) [Decidable bad] (e : ε) :
    Checks record (rejectIf bad e) (¬bad) [] fun _ => True := by
  unfold Validation.rejectIf
  split
  case isTrue h => exact (push e).invalid id fun hn => hn h
  case isFalse h => exact returns h trivial

theorem rejectSome (field : Option α) (e : α → ε) :
    Checks record (rejectSome field e) (field = none) [] fun _ => True := by
  cases field with
  | none => exact returns rfl trivial
  | some a => exact (push (e a)).invalid id (by simp)

theorem onSome {R : α → Prop} {g : α → Check ε σ Unit} (field : Option α)
    (hg : ∀ a, Checks record (g a) (R a) [] fun _ => True) :
    Checks record (onSome field g) (∀ a, field = some a → R a) [] fun _ => True := by
  cases field with
  | none => exact returns (by simp) trivial
  | some a => exact (hg a).imp (by simp) fun _ => ⟨fun _ h => h, rfl⟩

theorem note {g : σ → σ} (i : ι) (h : ∀ t, g t = record t i) :
    Checks record (note g : Check ε σ Unit) True [i] fun _ => True :=
  ⟨(), [], [i], fun p => by simp [Validation.note, h]; rfl, by simp, fun _ => ⟨trivial, rfl⟩⟩

theorem noteIf {g : σ → σ} (b : Bool) (i : ι) (h : ∀ t, g t = record t i) :
    Checks record (noteIf b g : Check ε σ Unit) True (if b then [i] else []) fun _ => True := by
  cases b with
  | false => exact returns trivial trivial
  | true => exact note i h

theorem forEach {R : α → Prop} {items : α → List ι} {g : α → Check ε σ β}
    (as : List α) (hg : ∀ a ∈ as, Checks record (g a) (R a) (items a) (N a)) :
    Checks record (forEach g as) (∀ a ∈ as, R a) (as.flatMap items) (List.Forall₂ N as) := by
  induction as with
  | nil =>
    exact (value []).imp (by simp) fun _ => ⟨fun bs h => h ▸ List.Forall₂.nil, rfl⟩
  | cons a as ih =>
    have hrest := ih fun b hb => hg b (List.mem_cons_of_mem a hb)
    refine ((hg a List.mem_cons_self).bind fun b => hrest.bind fun bs => value (b :: bs)).imp
      (by simp) fun _ => ⟨?_, by simp⟩
    rintro _ ⟨b, hb, bs, hbs, rfl⟩
    exact .cons hb hbs

theorem onField {R : α → Prop} {g : α → Check ε σ (Option β)} (field : Option α)
    (hg : ∀ a, field = some a → Checks record (g a) (R a) [] fun v => ∃ b, v = some b ∧ N a b) :
    Checks record (onField field g) (∀ a, field = some a → R a) [] (Option.Rel N field) := by
  cases field with
  | none => exact (value none).imp (by simp) fun _ => ⟨fun v h => h ▸ Option.Rel.none, rfl⟩
  | some a =>
    refine (hg a rfl).imp (by simp) fun _ => ⟨?_, rfl⟩
    rintro _ ⟨b, rfl, hb⟩
    exact .some hb

section Run

variable (t : σ)

theorem alone_eq_nil_iff (h : Checks record c P is M) : alone t c = [] ↔ P := by
  obtain ⟨a, es, is', hrun, hes, -⟩ := h
  simp [alone, hrun, hes]

theorem run_of_valid (h : Checks record c P is M) (hP : P) :
    M (c.run ⟨[], t⟩).1 ∧ (c.run ⟨[], t⟩).2.tables = is.foldl record t := by
  obtain ⟨a, es, is', hrun, hes, hgives⟩ := h
  obtain ⟨ha, rfl⟩ := hgives hP
  simp [hrun, ha]

end Run

theorem appends (h : Checks record c P is M) : Appends c := by
  obtain ⟨a, es, is', hrun, -⟩ := h
  exact ⟨a, es, fun t => is'.foldl record t, hrun⟩

end Checks

section Loops

variable {f : α → Check ε σ β}

theorem Appends.bind {c : Check ε σ α} (hc : Appends c) (hf : ∀ a, Appends (f a)) :
    Appends (c >>= f) := by
  obtain ⟨a, es, g, hrun⟩ := hc
  obtain ⟨b, fs, k, hrun'⟩ := hf a
  refine ⟨b, es ++ fs, k ∘ g, fun p => ?_⟩
  have hbind : (c >>= f).run p = (f (c.run p).1).run (c.run p).2 := rfl
  rw [hbind, hrun, hrun', List.append_assoc]
  rfl

theorem Appends.value (a : α) : Appends (pure a : Check ε σ α) :=
  ⟨a, [], id, fun p => by rw [List.append_nil]; rfl⟩

theorem Appends.forEach {as : List α} (hf : ∀ a, Appends (f a)) : Appends (forEach f as) := by
  induction as with
  | nil => exact .value []
  | cons a as ih => exact (hf a).bind fun b => ih.bind fun bs => .value (b :: bs)

theorem alone_subset_forEach (t : σ) {as : List α} (hf : ∀ a, Appends (f a)) {a : α}
    (ha : a ∈ as) : alone t (f a) ⊆ alone t (forEach f as) := by
  induction as with
  | nil => cases ha
  | cons b as ih =>
    have hrest : ∀ v, Appends (do let vs ← forEach f as; return v :: vs) := fun v =>
      (Appends.forEach hf).bind fun vs => .value (v :: vs)
    obtain ⟨v, hbind⟩ := alone_bind t (f b) hrest
    have htail : alone t (do let vs ← forEach f as; return v :: vs) = alone t (forEach f as) := rfl
    rw [forEach, hbind, htail]
    obtain rfl | ha := List.mem_cons.mp ha
    · exact List.subset_append_left _ _
    · exact List.Subset.trans (ih ha) (List.subset_append_right _ _)

end Loops

end Gcit.Library.Validation
