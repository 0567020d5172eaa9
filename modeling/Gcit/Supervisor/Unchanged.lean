import Gcit.Library.JsonUnique
import Gcit.Supervisor.Daemon
import Mathlib.Data.Multiset.MapFold

/-! # What an unchanged flow shares with the old one

The comparison of a reload holds between two configurations exactly when they have
one shape: the order of destinations and of the events within one is no part of it,
nor are the name and the description. Distinct JSON values are taken to have
distinct texts.
-/

namespace Gcit.Supervisor

open Std Gcit Gcit.Git Gcit.Library

/-- One kind of destination with the same settings, its events in any order. -/
inductive SameDestination : Destination → Destination → Prop
  | discordWebhook (credentialId : CredentialId) (template : DiscordTemplateConfig)
      {old new : List FireEvent} (h : old.Perm new) :
      SameDestination (.discordWebhook credentialId old template)
        (.discordWebhook credentialId new template)
  | localMail (user : String) (template : LocalMailTemplateConfig)
      {old new : List FireEvent} (h : old.Perm new) :
      SameDestination (.localMail user old template) (.localMail user new template)

/-- Two flows poll, dispatch and notify alike. -/
structure SameShape (old new : FlowConfig) : Prop where
  enabled : old.enabled = new.enabled
  source : old.source = new.source
  action : old.action = new.action
  poll : old.poll = new.poll
  destination : Multiset.Rel SameDestination (old.destination : Multiset Destination)
    (new.destination : Multiset Destination)

theorem insertionSort_eq_iff_perm {α : Type} (r : α → α → Prop) [DecidableRel r] [Std.Total r]
    [IsTrans α r] [Std.Antisymm r] {a b : List α} :
    a.insertionSort r = b.insertionSort r ↔ a.Perm b := by
  constructor
  · intro h
    exact (List.perm_insertionSort r a).symm.trans (h ▸ List.perm_insertionSort r b)
  · intro h
    have hperm := (List.perm_insertionSort r a).trans (h.trans (List.perm_insertionSort r b).symm)
    exact hperm.eq_of_pairwise' (List.pairwise_insertionSort r a) (List.pairwise_insertionSort r b)

theorem FireEvent.value_injective : Function.Injective FireEvent.value := by
  intro a b h
  cases a <;> cases b <;> simp_all [FireEvent.value]

variable {crates : Crates}

theorem sorted_fireOn_eq_iff (hjson : Function.Injective crates.jsonToString)
    {old new : List FireEvent} :
    (old.map FireEvent.value).insertionSort
        (fun a b => crates.jsonToString a ≤ crates.jsonToString b) =
      (new.map FireEvent.value).insertionSort
        (fun a b => crates.jsonToString a ≤ crates.jsonToString b) ↔ old.Perm new := by
  have htotal : Std.Total fun a b : Json => crates.jsonToString a ≤ crates.jsonToString b :=
    ⟨fun _ _ => String.le_total _ _⟩
  have htrans : IsTrans Json fun a b => crates.jsonToString a ≤ crates.jsonToString b :=
    ⟨fun _ _ _ => String.le_trans⟩
  have hantisymm : Std.Antisymm fun a b : Json => crates.jsonToString a ≤ crates.jsonToString b :=
    ⟨fun _ _ hab hba => hjson (String.le_antisymm hab hba)⟩
  rw [insertionSort_eq_iff_perm, List.map_perm_map_iff FireEvent.value_injective]

theorem canonicalizeFireOn_discordWebhook_eq_iff (hjson : Function.Injective crates.jsonToString)
    {credentialId credentialId' : CredentialId} {fireOn fireOn' : List FireEvent}
    {template template' : DiscordTemplateConfig} :
    canonicalizeFireOn crates (destinationValue (.discordWebhook credentialId fireOn template)) =
        canonicalizeFireOn crates
          (destinationValue (.discordWebhook credentialId' fireOn' template')) ↔
      credentialId = credentialId' ∧ fireOn.Perm fireOn' ∧ template = template' := by
  obtain ⟨title, description, fieldName, fieldValue, collapsedSummary⟩ := template
  obtain ⟨title', description', fieldName', fieldValue', collapsedSummary'⟩ := template'
  simp only [destinationValue, canonicalizeFireOn, List.map_cons, List.map_nil, ↓reduceIte,
    Json.object.injEq, List.cons.injEq, Prod.mk.injEq, Json.string.injEq, Json.array.injEq,
    sorted_fireOn_eq_iff hjson, ofOption_string_injective.eq_iff, DiscordTemplateConfig.mk.injEq,
    true_and, and_true]
  tauto

theorem canonicalizeFireOn_localMail_eq_iff (hjson : Function.Injective crates.jsonToString)
    {user user' : String} {fireOn fireOn' : List FireEvent}
    {template template' : LocalMailTemplateConfig} :
    canonicalizeFireOn crates (destinationValue (.localMail user fireOn template)) =
        canonicalizeFireOn crates (destinationValue (.localMail user' fireOn' template')) ↔
      user = user' ∧ fireOn.Perm fireOn' ∧ template = template' := by
  obtain ⟨subject, body⟩ := template
  obtain ⟨subject', body'⟩ := template'
  simp only [destinationValue, canonicalizeFireOn, List.map_cons, List.map_nil, ↓reduceIte,
    Json.object.injEq, List.cons.injEq, Prod.mk.injEq, Json.string.injEq, Json.array.injEq,
    sorted_fireOn_eq_iff hjson, ofOption_string_injective.eq_iff, LocalMailTemplateConfig.mk.injEq,
    true_and, and_true]
  tauto

theorem canonicalizeFireOn_eq_iff (hjson : Function.Injective crates.jsonToString)
    {d e : Destination} : canonicalizeFireOn crates (destinationValue d) =
      canonicalizeFireOn crates (destinationValue e) ↔ SameDestination d e := by
  constructor
  · intro h
    cases d with
    | discordWebhook credentialId fireOn template =>
      cases e with
      | discordWebhook credentialId' fireOn' template' =>
        obtain ⟨rfl, hperm, rfl⟩ := (canonicalizeFireOn_discordWebhook_eq_iff hjson).mp h
        exact .discordWebhook credentialId template hperm
      | localMail user fireOn' template' => simp [destinationValue, canonicalizeFireOn] at h
    | localMail user fireOn template =>
      cases e with
      | discordWebhook credentialId fireOn' template' =>
        simp [destinationValue, canonicalizeFireOn] at h
      | localMail user' fireOn' template' =>
        obtain ⟨rfl, hperm, rfl⟩ := (canonicalizeFireOn_localMail_eq_iff hjson).mp h
        exact .localMail user template hperm
  · intro h
    cases h with
    | discordWebhook credentialId template hperm =>
      exact (canonicalizeFireOn_discordWebhook_eq_iff hjson).mpr ⟨rfl, hperm, rfl⟩
    | localMail user template hperm =>
      exact (canonicalizeFireOn_localMail_eq_iff hjson).mpr ⟨rfl, hperm, rfl⟩

theorem canonicalDestinationMultiset_eq_iff (hjson : Function.Injective crates.jsonToString)
    {old new : List Destination} :
    canonicalDestinationMultiset crates old = canonicalDestinationMultiset crates new ↔
      Multiset.Rel SameDestination (old : Multiset Destination) (new : Multiset Destination) := by
  have htotal : Std.Total fun a b : String => a ≤ b := ⟨String.le_total⟩
  have htrans : IsTrans String fun a b => a ≤ b := ⟨fun _ _ _ => String.le_trans⟩
  have hantisymm : Std.Antisymm fun a b : String => a ≤ b := ⟨fun _ _ => String.le_antisymm⟩
  rw [canonicalDestinationMultiset, canonicalDestinationMultiset, insertionSort_eq_iff_perm,
    ← Multiset.coe_eq_coe, ← Multiset.map_coe, ← Multiset.map_coe, ← Multiset.rel_eq,
    Multiset.rel_map]
  simp only [hjson.eq_iff, canonicalizeFireOn_eq_iff hjson]

theorem flowConfigUnchanged_iff_sameShape (hjson : Function.Injective crates.jsonToString)
    {old new : FlowConfig} : flowConfigUnchanged crates old new = true ↔ SameShape old new := by
  rw [flowConfigUnchanged_iff, canonicalDestinationMultiset_eq_iff hjson]
  constructor
  · rintro ⟨henabled, ⟨hsource, haction, hpoll⟩, hdestination⟩
    exact ⟨henabled, hsource, haction, hpoll, hdestination⟩
  · intro h
    exact ⟨h.enabled, ⟨h.source, h.action, h.poll⟩, h.destination⟩

theorem flowConfigUnchanged_equivalence (crates : Crates) :
    Equivalence fun old new => flowConfigUnchanged crates old new = true := by
  simp only [flowConfigUnchanged_iff]
  refine ⟨fun f => ⟨rfl, ⟨rfl, rfl, rfl⟩, rfl⟩, ?_, ?_⟩
  · rintro f g ⟨henabled, ⟨hsource, haction, hpoll⟩, hdestination⟩
    exact ⟨henabled.symm, ⟨hsource.symm, haction.symm, hpoll.symm⟩, hdestination.symm⟩
  · rintro f g k ⟨henabled, ⟨hsource, haction, hpoll⟩, hdestination⟩
      ⟨henabled', ⟨hsource', haction', hpoll'⟩, hdestination'⟩
    exact ⟨henabled.trans henabled', ⟨hsource.trans hsource', haction.trans haction',
      hpoll.trans hpoll'⟩, hdestination.trans hdestination'⟩

/-- A flow is unchanged across a reload exactly when its shape is, and this is an
equivalence that neither the name nor the description enters. -/
theorem flowConfigUnchanged_decides_shape (crates : Crates)
    (hjson : Function.Injective crates.jsonToString) :
    (Equivalence fun old new => flowConfigUnchanged crates old new = true) ∧
      (∀ old new, flowConfigUnchanged crates old new = true ↔ SameShape old new) ∧
      ∀ (old new : FlowConfig) (name name' : String) (description description' : Option String),
        flowConfigUnchanged crates { old with name := name, description := description }
            { new with name := name', description := description' } =
          flowConfigUnchanged crates old new :=
  ⟨flowConfigUnchanged_equivalence crates, fun _ _ => flowConfigUnchanged_iff_sameShape hjson,
    fun _ _ _ _ _ _ => rfl⟩

/-- The parsers of the fixed runs, with JSON values written out. -/
def textCrates : Crates where
  toUrlCrates := kernelCrates.toUrlCrates
  jsonToString v := String.ofList (v.text Json.numeral)

theorem jsonToString_injective : Function.Injective textCrates.jsonToString :=
  fun _ _ h => Json.text_injective Json.numerals_numeral (String.ofList_injective h)

def notifyingFlow (destination : List Destination) : FlowConfig :=
  { kernelFlow "linux" "linux.git" "refs/heads/master" with destination := destination }

def alice : Destination := .localMail "alice" [.jobComplete] {}

def hookA (fireOn : List FireEvent) : Destination := .discordWebhook "hookA" fireOn {}

/-- Destinations and their events in another order leave a flow unchanged; one
destination more does not. -/
theorem reordered_destinations_unchanged :
    flowConfigUnchanged textCrates (notifyingFlow [hookA [.runStart, .runComplete], alice])
        (notifyingFlow [alice, hookA [.runComplete, .runStart]]) = true ∧
      flowConfigUnchanged textCrates (notifyingFlow [alice]) (notifyingFlow [alice, alice]) ≠
        true := by
  obtain ⟨-, hshape, -⟩ := flowConfigUnchanged_decides_shape textCrates jsonToString_injective
  constructor
  · refine (hshape _ _).mpr ⟨rfl, rfl, rfl, rfl, ?_⟩
    have hswap : (([hookA [.runStart, .runComplete], alice] : List Destination) :
        Multiset Destination) = ([alice, hookA [.runStart, .runComplete]] : List Destination) :=
      Multiset.coe_eq_coe.mpr (.swap _ _ _)
    have halice : SameDestination alice alice := .localMail _ _ (.refl _)
    have hhook : SameDestination (hookA [.runStart, .runComplete])
        (hookA [.runComplete, .runStart]) := .discordWebhook _ _ (.swap _ _ _)
    exact hswap ▸ .cons halice (.cons hhook .zero)
  · intro h
    have hcard := Multiset.card_eq_card_of_rel ((hshape _ _).mp h).destination
    cases hcard

end Gcit.Supervisor
