import OptionResearch.BacktestModels

/-!
# No-look-ahead protections

`assert_visible` and `audit_lookup` of `guards.py`. A strict guard lets a record through exactly
when it is not later than the as-of time, so no audit it hands out observes the future.
-/

namespace OptionResearch

structure NoLookAheadGuard where
  strict : Bool := true

/-- The observation recorded in an audit, if any, is not later than `asOf`. -/
def InformationSetAudit.VisibleAt (audit : InformationSetAudit) (asOf : DateTime) : Prop :=
  ∀ observed, audit.observedTimestamp = some observed → observed ≤ asOf

namespace NoLookAheadGuard

variable (guard : NoLookAheadGuard) (text : PyText)

def assertVisible (asOf recordTimestamp : DateTime) : Except Exc Unit :=
  let asOfTs := asOf.ensureAware
  let recordTs := recordTimestamp.ensureAware
  if asOfTs < recordTs ∧ guard.strict then
    .error ⟨.noLookAheadError, "record timestamp exceeds available information set " ++
      s!"(as_of={text.isoformat asOfTs} record={text.isoformat recordTs})"⟩
  else .ok ()

def auditLookup (lookupKey : String) (requestedTimestamp : DateTime)
    (observedTimestamp : Option DateTime) (asOfPolicy : AsOfPolicy)
    (sourceManifest sourceRef : PyValue) (reasonCode : String) (metadata : Payload) :
    Except Exc InformationSetAudit := do
  let requestedTs := requestedTimestamp.ensureAware
  let observedTs := observedTimestamp.map DateTime.ensureAware
  observedTs.elim (.ok ()) (guard.assertVisible text requestedTs)
  return { lookupKey, requestedTimestamp := requestedTs, observedTimestamp := observedTs,
           asOfPolicy, sourceManifest, sourceRef, reasonCode, metadata }

variable {guard text}

theorem assertVisible_eq_ok_iff (hs : guard.strict = true) (asOf recordTimestamp : DateTime) :
    guard.assertVisible text asOf recordTimestamp = .ok () ↔ recordTimestamp ≤ asOf := by
  simp only [assertVisible, DateTime.ensureAware_lt_iff]
  split_ifs with h
  · simp only [false_iff]
    exact fun hle => DateTime.not_le_iff.mpr h.1 hle
  · simp only [true_iff]
    by_contra hn
    exact h ⟨DateTime.not_le_iff.mp hn, hs⟩

theorem auditLookup_visible (hs : guard.strict = true) {lookupKey : String}
    {requestedTimestamp : DateTime} {observedTimestamp : Option DateTime} {asOfPolicy : AsOfPolicy}
    {sourceManifest sourceRef : PyValue} {reasonCode : String} {metadata : Payload}
    {audit : InformationSetAudit}
    (h : guard.auditLookup text lookupKey requestedTimestamp observedTimestamp asOfPolicy
      sourceManifest sourceRef reasonCode metadata = .ok audit) :
    audit.VisibleAt requestedTimestamp := by
  obtain ⟨_, hvisible, hrecord⟩ := except_bind_eq_ok.mp h
  cases hrecord
  intro observed ho
  have hobserved : observedTimestamp.map DateTime.ensureAware = some observed := ho
  rw [hobserved, Option.elim_some] at hvisible
  have hle := (assertVisible_eq_ok_iff hs _ _).mp hvisible
  rwa [DateTime.le_iff, DateTime.instant_ensureAware] at hle

end NoLookAheadGuard
end OptionResearch
