/-
  Hotspot/Proofs/Acts.lean
  ========================
  **What operations are made of.**

  Seen from the history, a manager does few things: it makes calls, among them to store its
  registry, it starts and stops watches, and it changes its registry.  `Acts` is a sequence of
  these.  It keeps account of one bit: whether the registry is *settled*, that is, not changed
  since it was last stored.

  Every operation is such a sequence (`acts_perform`), and every operation but restoring and a
  failed installation leaves the registry settled if it was so before (`settled_perform`).
  Facts about the calls of an operation that hold of each act follow by induction on `Acts`
  and need no further look at the operations.
-/
import Hotspot.Proofs.Gates
import Hotspot.Proofs.Runs

namespace Hotspot

/-- A call that neither starts or stops a watch nor stores the registry. -/
def Call.isPlain : Call → Bool
  | .startWatching _ => false
  | .stopWatching _ => false
  | .persist .. => false
  | _ => true

theorem Call.isPlain_of_isQuiet {c : Call} (h : c.isQuiet = true) : c.isPlain = true := by
  cases c <;> first | rfl | cases h

namespace Manager

/-- `m'` comes from `m` by acts.  The flags say whether the registry is settled before and
    after. -/
inductive Acts : Bool → Manager → Bool → Manager → Prop where
  | none {b : Bool} {m : Manager} : Acts b m b m
  | call {b b' : Bool} {m m' : Manager} (c : Call) (plain : c.isPlain = true) :
      Acts b m b' m' → Acts b m b' (m'.record c)
  | persist {b b' : Bool} {m m' : Manager} (p : Platform) :
      Acts b m b' m' → Acts b m true (m'.persist p)
  | startWatching {b b' : Bool} {m m' : Manager} (app : AppIdentity) :
      Acts b m b' m' → Acts b m b' (m'.startWatching app)
  | stopWatching {b b' : Bool} {m m' : Manager} (package : String) :
      Acts b m b' m' → Acts b m b' (m'.stopWatching package)
  | setRegistry {b b' : Bool} {m m' : Manager} (r : Registry) :
      Acts b m b' m' → Acts b m false { m' with registry := r }
  | quiet {b b' : Bool} {m m₁ m₂ : Manager} (h : Quiet m₁ m₂) :
      Acts b m b' m₁ → Acts b m b' m₂

namespace Acts

variable {b b' : Bool} {m m' : Manager} {p : Platform}

/-! ### Steps -/

theorem calls {cs : List Call} (plain : ∀ c ∈ cs, c.isPlain = true) (h : Acts b m b' m') :
    Acts b m b' { m' with history := cs ++ m'.history } := by
  induction cs with
  | nil => exact h
  | cons c rest ih =>
    exact (ih fun c' hc => plain c' (List.mem_cons_of_mem _ hc)).call c
      (plain c List.mem_cons_self)

theorem increment (c : Counter) (h : Acts b m b' m') : Acts b m b' (m'.increment c) :=
  h.call _ rfl

theorem retire (q : Profile) (h : Acts b m b' m') : Acts b m b' (m'.retire p q) :=
  (h.call (.uninstall q _) rfl).call _ rfl

theorem retireAll (removed : List Profile) (h : Acts b m b' m') :
    Acts b m b' (removed.foldl (fun m q => m.retireCounted p q) m') := by
  refine List.foldlRecOn (motive := fun m' => Acts b m b' m') removed _ h ?_
  intro m₁ acts q _
  exact ((acts.increment _).retire q).increment _

theorem retireReplaced (q : Profile) (old : Option Profile) (h : Acts b m b' m') :
    Acts b m b' (m'.retireReplaced p q old) := by
  unfold Manager.retireReplaced
  split
  · exact h
  · split
    · exact h.call _ rfl
    · exact (h.call _ rfl).call _ rfl

theorem releaseOwner (gone : Profile) (h : Acts b m b' m') :
    Acts b m b' (m'.releaseOwner gone) := by
  unfold Manager.releaseOwner
  split
  · exact h.stopWatching _
  · exact h

theorem releaseReplaced (old : Option Profile) (h : Acts b m b' m') :
    Acts b m b' (m'.releaseReplaced old) := by
  cases old with
  | none => exact h
  | some old => exact h.releaseOwner old

theorem disconnectFrom (domain : Option String) (removed : List Profile)
    (h : Acts b m b' m') : Acts b m b' (m'.disconnectFrom domain removed) := by
  unfold Manager.disconnectFrom
  split
  · exact h
  · split
    · exact h.call _ rfl
    · exact h

/-- A change that is stored at once. -/
theorem change (r : Registry) (h : Acts b m b' m') :
    Acts b m true ({ m' with registry := r }.persist p) :=
  (h.setRegistry r).persist p

theorem refreshCarrier (fqdn : String) (h : Acts b m true m') :
    Acts b m true (m'.refreshCarrier p fqdn) :=
  refreshCarrier_induction (I := fun m' => Acts b m true m') (fun _ _ hq h => h.quiet hq)
    (fun _ _ _ _ h => h.change _) fqdn h

theorem commit (q : Profile) (h : Acts b m b' m') : Acts b m true (m'.commit p q) :=
  ((((h.setRegistry _).retireReplaced q _).persist p).releaseReplaced _).refreshCarrier _

theorem enter (q : Profile) (watch : Bool) (h : Acts b m b' m') :
    Acts b m true (m'.enter p q watch) := by
  unfold Manager.enter
  cases watch with
  | false => exact (h.commit q).increment _
  | true => exact ((h.commit q).startWatching _).increment _

end Acts

/-! ### Operations -/

variable (m : Manager) (p : Platform)

theorem isPlain_of_mem_callsThrough (r : InstallRequest) (g : Gate) :
    ∀ c ∈ (r.callsThrough m p g).reverse, c.isPlain = true := by
  intro c hc
  rcases r.mem_callsThrough (List.mem_reverse.1 hc) with rfl | ⟨ca, failure, rfl⟩ |
    ⟨q, failure, rfl⟩
  · rfl
  · rfl
  · rfl

theorem acts_refused (r : InstallRequest) (g : Gate) : ∃ b, Acts true m b (r.refused m p g) := by
  have h := Acts.none.calls (b := true) (m := m) (isPlain_of_mem_callsThrough m p r g)
  by_cases hg : g = .install
  · refine ⟨false, ?_⟩
    rw [InstallRequest.refused, if_pos hg]
    exact h.setRegistry _
  · refine ⟨true, ?_⟩
    rw [InstallRequest.refused, if_neg hg]
    exact h

theorem settled_entered (r : InstallRequest) (q : Profile) (watch : Bool) :
    Acts true m true ((r.accepted m p).enter p q watch) :=
  ((Acts.none.calls (isPlain_of_mem_callsThrough m p r .install)).setRegistry
    m.registry.takeIndex).enter q watch

theorem settled_importLegacy (entry : Legacy.Entry) :
    Acts true m true (m.importLegacy p entry).2 := by
  rcases m.importLegacy_cases p entry with ⟨e, h⟩ | ⟨q, -, -, -, h⟩ <;> rw [h]
  · exact Acts.none.increment _
  · exact ((Acts.none.increment _).setRegistry _).enter q _

theorem settled_remove (uid : UInt32) (privileged : Bool) (fqdn : String) :
    Acts true m true (m.remove p uid privileged fqdn).2 := by
  rcases m.remove_cases p uid privileged fqdn with ⟨e, h⟩ | ⟨q, -, -, h⟩ <;> rw [h]
  · exact Acts.none.increment _
  · exact (((((Acts.none.increment _).setRegistry _).retire q).persist p).releaseOwner q).increment _

/-- When a package has nothing to remove, the registry stays settled without being stored. -/
theorem Acts.removeSavedBy {b : Bool} {m m' : Manager} (package : String) (h : Acts b m true m') :
    Acts b m true (m'.removeSavedBy p package).2 := by
  unfold Manager.removeSavedBy
  dsimp only
  split
  · rename_i hempty
    rw [List.isEmpty_iff.1 hempty, Registry.eraseSavedBy_eq_self (List.isEmpty_iff.1 hempty)]
    exact h
  · exact ((h.setRegistry _).retireAll _).persist p

theorem settled_authorizationChanged (package : String) :
    Acts true m true (m.authorizationChanged p package).2 := by
  rcases m.authorizationChanged_cases p package with ⟨-, h⟩ | ⟨uid, -, ⟨-, h⟩ | ⟨-, h⟩⟩ <;> rw [h]
  · exact .none
  · exact Acts.none.call _ rfl
  · have asked : Acts true m true (m.record (.isAuthorized { uid, package } false)) :=
      Acts.none.call _ rfl
    exact (((asked.call _ rfl).removeSavedBy p package).stopWatching package).disconnectFrom _ _

theorem acts_restore (s : PersistedState) : Acts true m false (m.restore s) := by
  unfold restore
  refine List.foldlRecOn (motive := fun m' => Acts true m false m') _ _ ?_ ?_
  · -- the orphans are released from the restored registry
    refine List.foldlRecOn (motive := fun m' => Acts true m false m') _ _ ?_ ?_
    · exact Acts.none.setRegistry _
    · intro m' acts package _
      exact acts.stopWatching package
  · intro m' acts q _
    exact acts.startWatching q.owner

/-- **Every operation is a sequence of acts.** -/
theorem acts_perform (op : Operation) : ∃ b, Acts true m b (m.perform p op).2 := by
  apply perform_induction (I := fun m' => ∃ b, Acts true m b m')
  · rintro m₁ m₂ hq ⟨b, acts⟩
    exact ⟨b, acts.quiet hq⟩
  · rintro m₁ fqdn f - ⟨b, acts⟩
    exact ⟨true, acts.change _⟩
  · intro config? caller isSuggestion _
    apply add_induction (I := fun m' => ∃ b, Acts true m b m')
    · exact acts_refused m p
    · intro r q _
      exact ⟨true, settled_entered m p r q _⟩
  · intro entry _
    exact ⟨true, settled_importLegacy m p entry⟩
  · intro uid privileged fqdn
    exact ⟨true, settled_remove m p uid privileged fqdn⟩
  · intro package
    exact ⟨true, settled_authorizationChanged m p package⟩
  · intro s _
    exact ⟨false, acts_restore m s⟩
  · exact ⟨true, .none⟩

/-- **Operations leave the registry settled.**  The exceptions are restoring, which takes over
    what is stored, and an installation that a gate refused, which leaves the profiles alone. -/
theorem settled_perform {op : Operation} (hop : ∀ s, op ≠ .restore s) :
    Acts true m true (m.perform p op).2 ∨
      (m.perform p op).2.registry.profiles = m.registry.profiles := by
  by_cases hadd : ∃ config? caller isSuggestion, op = .add config? caller isSuggestion
  · obtain ⟨config?, caller, isSuggestion, rfl⟩ := hadd
    apply add_induction (I := fun m' => Acts true m true m' ∨
      m'.registry.profiles = m.registry.profiles)
    · intro r g
      refine Or.inr ?_
      unfold InstallRequest.refused
      split <;> rfl
    · intro r q _
      exact Or.inl (settled_entered m p r q _)
  · refine Or.inl ?_
    apply perform_induction (I := fun m' => Acts true m true m')
    · intro m₁ m₂ hq acts
      exact acts.quiet hq
    · intro m₁ fqdn f _ acts
      exact acts.change _
    · intro config? caller isSuggestion h
      exact absurd ⟨config?, caller, isSuggestion, h⟩ hadd
    · intro entry _
      exact settled_importLegacy m p entry
    · exact settled_remove m p
    · exact settled_authorizationChanged m p
    · intro s h
      exact absurd h (hop s)
    · exact .none

end Manager

end Hotspot
