/-
  Hotspot/Proofs/NetworkEntries.lean
  ==================================
  **Network entries go with their profiles.**

  The store of network configurations knows a profile under a key.  When a profile is retired
  its entry is removed, unless the profile in its place has the very same entry.  So no key is
  left behind that nothing derives any more.  Nor is an entry removed that a profile still needs
  which the operation left alone, because a key tells the home domain and the source
  (`keyFor_injective`), and there is one profile for each domain.
-/
import Hotspot.Proofs.Retirement
import Hotspot.Proofs.Revocation

namespace Hotspot

/-! ### Keys -/

theorem NetworkDescriptor.keyFor_injective {fqdn fqdn' : String} {source source' : ProfileSource}
    (h : keyFor fqdn source = keyFor fqdn' source') : fqdn = fqdn' ∧ source = source' := by
  unfold keyFor at h
  rw [← String.toList_inj] at h
  simp only [String.toList_append, List.append_assoc] at h
  have hrest := List.append_cancel_left h
  -- The tails end in different letters, whatever the domains are.
  have hlast := congrArg List.getLast? hrest
  have hsource : source = source' := by
    cases source <;> cases source' <;> first | rfl | simp [keyTail] at hlast
  subst hsource
  exact ⟨String.toList_inj.1 (List.append_cancel_right hrest), rfl⟩

theorem Profile.key_eq (q : Profile) :
    q.descriptor.key = NetworkDescriptor.keyFor q.fqdn q.source := by
  rw [← fqdn_descriptor]
  rfl

theorem Profile.SameInstallation.key {q q' : Profile} (h : q.SameInstallation q') :
    q'.descriptor.key = q.descriptor.key := by
  rw [q'.key_eq, q.key_eq, h.fqdn, h.source]

def Registry.Derives (r : Registry) (key : String) : Prop :=
  ∃ q ∈ r.profiles.values, q.descriptor.key = key

/-! ### Deeds -/

def Deed.removedKey? : Deed → Option String
  | .removeEntry key => some key
  | _ => none

theorem Call.removedKey?_eq (c : Call) : c.removedKey? = c.deed?.bind Deed.removedKey? := by
  cases c <;> rfl

theorem removedKeys_dismissals (entered : Option Profile) (gone : List Profile) :
    (gone.flatMap fun q => (dismissal entered q).filterMap Deed.removedKey?) =
      (gone.filter fun q => !q.leavesEntryTo entered).map (·.descriptor.key) := by
  induction gone with
  | nil => rfl
  | cons q rest ih =>
    rw [List.flatMap_cons, ih]
    cases hleaves : q.leavesEntryTo entered with
    | false =>
      have hone : (dismissal entered q).filterMap Deed.removedKey? = [q.descriptor.key] := by
        rw [dismissal, hleaves]
        rfl
      rw [hone, List.filter_cons_of_pos (by simp [hleaves])]
      rfl
    | true =>
      have hone : (dismissal entered q).filterMap Deed.removedKey? = [] := by
        rw [dismissal, hleaves]
        rfl
      rw [hone, List.filter_cons_of_neg (by simp [hleaves]), List.nil_append]

namespace Manager

variable {m : Manager} {p : Platform} {op : Operation}

theorem removedKeys_perform (hr : m.registry.Keyed) (hop : ∀ s, op ≠ .restore s) :
    (callsSince m.history (m.perform p op).2.history).filterMap Call.removedKey? =
      ((m.retired p op).filter fun q => !q.leavesEntryTo (m.entered? p op)).map
        (·.descriptor.key) := by
  obtain ⟨tried, stored, turn, does⟩ := turn_retires (p := p) hr hop
  obtain ⟨r₁, move, -⟩ := turn.move
  have htried : tried.filterMap Deed.removedKey? = [] := by
    rcases move.tried_cases with rfl | ⟨q, accepted, rfl⟩ <;> rfl
  rw [does.filterMap_eq Call.removedKey?_eq, filterMap_turnDeeds, htried, removedKeys_dismissals]
  simp [Deed.removedKey?]

theorem getLast?_turnDeeds (entered : Option Profile) (tried : List Deed) (gone : List Profile)
    {stored : List PersistedState} (hne : stored ≠ []) :
    ∃ state, (turnDeeds entered tried gone stored).getLast? = some (.store state) := by
  refine ⟨stored.getLast hne, ?_⟩
  rw [turnDeeds, List.getLast?_append, List.getLast?_map, List.getLast?_eq_some_getLast hne]
  rfl

/-- An operation that removes an entry stores the registry after it. -/
theorem stores_after_removal (hop : ∀ s, op ≠ .restore s) {earlier later : List Call}
    {key : String} (hcalls : callsSince m.history (m.perform p op).2.history =
      earlier ++ .removeDescriptor key :: later) :
    ∃ immediate state failure, Call.persist immediate state failure ∈ later := by
  obtain ⟨tried, gone, stored, turn, does⟩ := turn_perform (m := m) (p := p) hop
  obtain ⟨r₁, move, -⟩ := turn.move
  have hdeeds : earlier.filterMap Call.deed? ++ .removeEntry key :: later.filterMap Call.deed? =
      turnDeeds (m.entered? p op) tried gone stored := by
    rw [← does.callsSince_eq, hcalls, List.filterMap_append]
    rfl
  have hne : stored ≠ [] := by
    intro hnil
    obtain ⟨-, rfl⟩ := turn.last hnil
    have hmem : Deed.removeEntry key ∈ turnDeeds (m.entered? p op) tried [] stored := by
      rw [← hdeeds]
      exact List.mem_append_right _ List.mem_cons_self
    rcases move.tried_cases with rfl | ⟨q, accepted, rfl⟩ <;> simp [turnDeeds, hnil] at hmem
  -- The last deed is to store, and it is not the removal.
  obtain ⟨state, hlast⟩ := getLast?_turnDeeds (m.entered? p op) tried gone hne
  rw [← hdeeds, List.getLast?_append, List.getLast?_cons, Option.some_or, ← List.getLast?_cons]
    at hlast
  have hstored : Deed.store state ∈ later.filterMap Call.deed? := by
    rcases List.mem_cons.1 (List.mem_of_getLast? hlast) with h | h
    · cases h
    · exact h
  obtain ⟨c, hc, hdeed⟩ := List.mem_filterMap.1 hstored
  cases c with
  | persist immediate s failure => exact ⟨immediate, s, failure, hc⟩
  | _ => cases hdeed

/-! ### The whole of an operation -/

/-- The network entries stay in step with the profiles in an operation. -/
structure TidiesEntries (m : Manager) (p : Platform) (op : Operation) (m' : Manager) : Prop where
  /-- One entry is removed for each profile that is retired, unless the profile in its place has
      the same. -/
  removed : (callsSince m.history m'.history).filterMap Call.removedKey? =
    ((m.retired p op).filter fun q => !q.leavesEntryTo (m.entered? p op)).map (·.descriptor.key)
  removed_once : (m.retired p op).Nodup
  replacement : ∀ q, m.entered? p op = some q →
    ∃ q', m'.registry.get? q.fqdn = some q' ∧ q.SameInstallation q'
  obsolete : ∀ key, m.registry.Derives key → ¬ m'.registry.Derives key →
    .removeDescriptor key ∈ callsSince m.history m'.history
  left_alone : ∀ q ∈ m.registry.profiles.values, q ∉ m.retired p op →
    (∃ q', m'.registry.get? q.fqdn = some q' ∧ q.SameInstallation q') ∧
      .removeDescriptor q.descriptor.key ∉ callsSince m.history m'.history
  stored_after : ∀ earlier key later,
    callsSince m.history m'.history = earlier ++ .removeDescriptor key :: later →
      ∃ immediate state failure, Call.persist immediate state failure ∈ later

theorem removeDescriptor_mem_iff {calls : List Call} {key : String} :
    .removeDescriptor key ∈ calls ↔ key ∈ calls.filterMap Call.removedKey? := by
  rw [List.mem_filterMap]
  constructor
  · intro h
    exact ⟨_, h, rfl⟩
  · rintro ⟨c, hc, hkey⟩
    cases c with
    | removeDescriptor key' =>
      have hk : key' = key := Option.some.inj hkey
      exact hk ▸ hc
    | _ => cases hkey

theorem tidiesEntries_perform (hr : m.registry.Keyed) (hop : ∀ s, op ≠ .restore s) :
    m.TidiesEntries p op (m.perform p op).2 := by
  obtain ⟨tried, stored, turn, -⟩ := turn_retires (p := p) hr hop
  have hremoved := removedKeys_perform (p := p) hr hop
  constructor
  case removed => exact hremoved
  case removed_once => exact hr.nodup_values.filter _
  case replacement =>
    intro q hq
    exact turn.entered_stays hr hq
  case obsolete =>
    rintro key ⟨q, hq, rfl⟩ hnone
    have hderived : ∀ {fqdn q'}, (m.perform p op).2.registry.get? fqdn = some q' →
        q'.descriptor.key ≠ q.descriptor.key := fun {fqdn q'} hget hkey =>
      hnone ⟨q', Registry.mem_values_iff.2 ⟨fqdn, hget⟩, hkey⟩
    rw [removeDescriptor_mem_iff, hremoved]
    refine List.mem_map.2 ⟨q, List.mem_filter.2 ⟨?_, ?_⟩, rfl⟩
    · apply Decidable.byContradiction
      intro hkept
      obtain ⟨q', hget, hsame⟩ := turn.kept hr (hr.get?_of_mem_values hq) hkept
      exact hderived hget hsame.key
    · rw [Bool.not_eq_true', ← Bool.not_eq_true]
      intro hleaves
      obtain ⟨e, he, hdescriptor⟩ := Option.map_eq_some_iff.1 (of_decide_eq_true hleaves)
      obtain ⟨q', hget, hsame⟩ := turn.entered_stays hr he
      exact hderived hget (hsame.key.trans (congrArg NetworkDescriptor.key hdescriptor))
  case left_alone =>
    intro q hq hkept
    have hget := hr.get?_of_mem_values hq
    refine ⟨turn.kept hr hget hkept, fun hmem => hkept ?_⟩
    rw [removeDescriptor_mem_iff, hremoved] at hmem
    obtain ⟨q', hq', hkey⟩ := List.mem_map.1 hmem
    have hretired : q' ∈ m.retired p op := (List.mem_filter.1 hq').1
    rw [q'.key_eq, q.key_eq] at hkey
    have hfqdn : q'.fqdn = q.fqdn := (NetworkDescriptor.keyFor_injective hkey).1
    have hget' := hr.get?_of_mem_values (List.mem_filter.1 hretired).1
    rw [hfqdn, hget, Option.some.injEq] at hget'
    exact hget' ▸ hretired
  case stored_after =>
    intro earlier key later hcalls
    exact stores_after_removal hop hcalls

/-- **Network entries go with their profiles.**  In every state that a manager can be in, each
    operation but restoring keeps the network entries in step with the profiles; and a key stands
    for one home domain and one source. -/
theorem network_entries_follow_profiles :
    (∀ (m : Manager) (p : Platform) (op : Operation), m.Reachable → (∀ s, op ≠ .restore s) →
      m.TidiesEntries p op (m.perform p op).2) ∧
    ∀ (fqdn fqdn' : String) (source source' : ProfileSource),
      NetworkDescriptor.keyFor fqdn source = NetworkDescriptor.keyFor fqdn' source' →
        fqdn = fqdn' ∧ source = source' := by
  constructor
  · intro m p op hm hop
    exact tidiesEntries_perform (keyed_of_reachable hm) hop
  · intro fqdn fqdn' source source' h
    exact NetworkDescriptor.keyFor_injective h

/-- The owner of a suggested profile installs it for the user: the entry of the suggestion goes,
    and the change is stored. -/
theorem network_entries_follow_profiles_adoption :
    let m := (new .default .default).run stocked
    let op := Operation.add (some (.ofSim "c.example")) ⟨10, "shop"⟩ false
    let m' := (m.perform .obliging op).2
    m.TidiesEntries .obliging op m' ∧
      (callsSince m.history m'.history).filterMap Call.removedKey? =
        [NetworkDescriptor.keyFor "c.example" .suggested] ∧
      NetworkDescriptor.keyFor "c.example" .suggested ≠
        NetworkDescriptor.keyFor "c.example" .saved := by
  intro m op m'
  have hm : m.Reachable := ⟨.default, .default, stocked, rfl⟩
  have htidy : m.TidiesEntries .obliging op m' :=
    network_entries_follow_profiles.1 m .obliging op hm (fun _ h => nomatch h)
  refine ⟨htidy, htidy.removed.trans (by decide), fun hkey => ?_⟩
  have hsource := (network_entries_follow_profiles.2 _ _ _ _ hkey).2
  cases hsource

end Manager

end Hotspot
