/-
  Hotspot/Proofs/Relaunch.lean
  ============================
  **Launching the program again and again is serving one manager.**

  Each launch of the program starts a new manager from the stored state, does one job and is gone.
  The same jobs can be put, one after the other, to one manager that never stops.  The two do not
  go through the same states: the manager that never stops remembers every call, and the order in
  which applications came to be watched.  They do have the same registry before each job, and
  watch the same packages that have a name, and what a job says and makes of the registry follows
  from these (`Job.perform_congr`).

  A manager is asked for operations, not for jobs.  A job about the profiles is one operation, and
  what it says is a matter of the reply to it (`Job.said`).

  What carries this from one launch to the next is that a job leaves the registry settled: either
  nothing changed and nothing was stored, or the registry was stored last (`Job.settled`).  So the
  state at the path is always the registry of the manager that never stops (`Holds`).
-/
import Hotspot.Command.Session
import Hotspot.Proofs.Restart
import Hotspot.Proofs.SavedFiles
import Hotspot.Proofs.StoredForms
import Hotspot.Proofs.Twins

namespace Hotspot

open Manager

namespace Command

/-! ### Jobs about the profiles -/

namespace Job

/-- A job about the profiles alone, which names the package that it revokes. -/
def IsOfProfiles : Job → Prop
  | .matchScan .. => False
  | .metrics => False
  | .revoke package _ => package ≠ ""
  | _ => True

def operation : Job → Operation
  | .add config caller isSuggestion => .add (some config) caller isSuggestion
  | .importLegacy entry => .importLegacy entry
  | .remove fqdn uid privileged => .remove uid privileged fqdn
  | .list uid privileged => .list uid privileged
  | .matchScan aps _ => .matchAll aps
  | .revoke package _ => .authorizationChanged package
  | .connected fqdn => .networkConnected fqdn
  | .autoJoin fqdn enabled => .enableAutoJoin fqdn enabled
  | .metrics => .publishMetrics

/-- What a job about the profiles says of the reply to its operation, which took `m` to `m'`. -/
def said (m m' : Manager) : Job → Reply → Except Failure String
  | _, .failed e => .error (.profile e)
  | .add config _ _, .done => .ok (installedText "Installed" config.fqdn m'.registry.nextIndex)
  | .importLegacy entry, .done => .ok (installedText "Imported" entry.fqdn m'.registry.nextIndex)
  | .remove fqdn _ _, .done => .ok ("Removed " ++ fqdn)
  | .list _ _, .configs cs => .ok (toJson cs).indented
  | .revoke package _, .count n =>
    .ok (revokedText n package (endConnection (callsSince m.history m'.history)))
  | .connected fqdn, .flag first =>
    .ok (fqdn ++ if first then " marked as connected" else " unchanged")
  | .autoJoin fqdn enabled, .flag true =>
    .ok ("Auto-join " ++ (if enabled then "enabled" else "disabled") ++ " for " ++ fqdn)
  | .autoJoin fqdn _, .flag false => .error (.noProfile fqdn)
  -- their operations have no other replies
  | _, _ => .ok ""

variable {m m' : Manager} {p p' : Platform} {job : Job}

/-- An operation that succeeds or fails, and what is said of each reply. -/
theorem unlessFailed_eq (r : Except ProfileError Unit × Manager) {say : Manager → String}
    (said : Manager → Reply → Except Failure String) (hdone : ∀ m, said m .done = .ok (say m))
    (hfailed : ∀ m e, said m (.failed e) = .error (.profile e)) :
    unlessFailed r say = (said r.2 (.ofResult r.1), r.2) := by
  obtain ⟨result, m⟩ := r
  cases result with
  | error e => exact Prod.ext (hfailed m e).symm rfl
  | ok _ => exact Prod.ext (hdone m).symm rfl

theorem unlessFailed_congr {r r' : Except ProfileError Unit × Manager} (h : SameEffect r r')
    {say : Manager → String} (hsay : say r.2 = say r'.2) :
    SameEffect (unlessFailed r say) (unlessFailed r' say) := by
  obtain ⟨result, m⟩ := r
  obtain ⟨result', m'⟩ := r'
  obtain ⟨hresult, hregistry⟩ := h
  dsimp only at hresult hregistry hsay
  subst hresult
  cases result with
  | error e => exact ⟨rfl, hregistry⟩
  | ok _ => exact ⟨congrArg Except.ok hsay, hregistry⟩

theorem perform_connected (fqdn : String) :
    (Job.connected fqdn).perform m p =
      (.ok (fqdn ++ if (m.networkConnected p fqdn).1 then " marked as connected" else " unchanged"),
        (m.networkConnected p fqdn).2) := by
  unfold Job.perform
  dsimp only
  obtain ⟨first, m'⟩ := m.networkConnected p fqdn
  cases first <;> rfl

theorem perform_autoJoin (fqdn : String) (enabled : Bool) :
    (Job.autoJoin fqdn enabled).perform m p =
      (if (m.enableAutoJoin p fqdn enabled).1 then
        .ok ("Auto-join " ++ (if enabled then "enabled" else "disabled") ++ " for " ++ fqdn)
      else .error (.noProfile fqdn), (m.enableAutoJoin p fqdn enabled).2) := by
  unfold Job.perform
  dsimp only
  obtain ⟨found, m'⟩ := m.enableAutoJoin p fqdn enabled
  cases found <;> rfl

/-- **A job about the profiles does its operation**, and says what is to be said of the reply. -/
theorem perform_eq (hjob : job.IsOfProfiles) :
    job.perform m p =
      let (reply, m') := m.perform p job.operation
      (job.said m m' reply, m') := by
  cases job with
  | add config caller isSuggestion =>
    exact unlessFailed_eq _ (fun m' => said m m' (.add config caller isSuggestion)) (fun _ => rfl)
      fun _ _ => rfl
  | importLegacy entry =>
    exact unlessFailed_eq _ (fun m' => said m m' (.importLegacy entry)) (fun _ => rfl)
      fun _ _ => rfl
  | remove fqdn uid privileged =>
    exact unlessFailed_eq _ (fun m' => said m m' (.remove fqdn uid privileged)) (fun _ => rfl)
      fun _ _ => rfl
  | list uid privileged => rfl
  | matchScan aps answers => cases hjob
  | revoke package connected => rfl
  | connected fqdn => exact perform_connected fqdn
  | autoJoin fqdn enabled =>
    rw [perform_autoJoin]
    unfold operation Manager.perform
    dsimp only
    obtain ⟨found, m'⟩ := m.enableAutoJoin p fqdn enabled
    cases found <;> rfl
  | metrics => cases hjob

/-- **What a job says and makes of the registry** is the same of two managers with one registry,
    on platforms that agree.  A revocation also needs that the package is watched or not watched
    in both, and that the same connection is found. -/
theorem perform_congr (hjob : job.IsOfProfiles) (h : p.Agree p') (hr : m.registry = m'.registry)
    (hwatch : ∀ package, package ≠ "" → m.isWatching package = m'.isWatching package)
    (hconnected : ∀ uid uid' package,
      m.connectedAtLoss p uid package = m'.connectedAtLoss p' uid' package) :
    SameEffect (job.perform m p) (job.perform m' p') := by
  cases job with
  | add config caller isSuggestion =>
    have heffect := add_congr h hr (some config) caller isSuggestion
    exact unlessFailed_congr heffect (by rw [heffect.2])
  | importLegacy entry =>
    have heffect := importLegacy_congr h hr entry
    exact unlessFailed_congr heffect (by rw [heffect.2])
  | remove fqdn uid privileged => exact unlessFailed_congr (remove_congr hr uid privileged fqdn) rfl
  | list uid privileged =>
    refine ⟨?_, hr⟩
    unfold Job.perform
    dsimp only
    rw [hr]
  | matchScan aps answers => cases hjob
  | revoke package connected =>
    obtain ⟨⟨hcount, hregistry⟩, hends⟩ := authorizationChanged_congr h hr
      (hwatch package hjob) fun uid uid' => hconnected uid uid' package
    refine ⟨?_, hregistry⟩
    unfold Job.perform
    dsimp only
    have hend : endConnection (callsSince m.history (m.authorizationChanged p package).2.history) =
        endConnection (callsSince m'.history (m'.authorizationChanged p' package).2.history) := by
      rw [Bool.eq_iff_iff, endConnection, endConnection, List.contains_iff_mem,
        List.contains_iff_mem]
      exact hends
    rw [hcount, hend]
  | connected fqdn =>
    have heffect : SameEffect (m.networkConnected p fqdn) (m'.networkConnected p' fqdn) :=
      networkConnected_congr hr fqdn
    rw [perform_connected, perform_connected, heffect.1]
    exact ⟨rfl, heffect.2⟩
  | autoJoin fqdn enabled =>
    have heffect : SameEffect (m.enableAutoJoin p fqdn enabled) (m'.enableAutoJoin p' fqdn enabled) :=
      enableAutoJoin_congr hr fqdn enabled
    rw [perform_autoJoin, perform_autoJoin, heffect.1]
    exact ⟨rfl, heffect.2⟩
  | metrics => cases hjob

/-- **The operation of a job about the profiles leaves the registry settled**, when every
    credential can be installed: a request that is refused before has not used up its number. -/
theorem settled (hjob : job.IsOfProfiles) (hinstall : ∀ h q, p.install h q = none) :
    Acts true m true (m.perform p job.operation).2 := by
  cases job with
  | add config caller isSuggestion =>
    let r : InstallRequest := { config? := some config, caller, isSuggestion }
    show Acts true m true (m.add p r.config? r.caller r.isSuggestion).2
    rcases r.first_failure m p with ⟨g, e, hbefore, hfailure⟩ | hnone
    · rw [add_of_refused m p r g hbefore hfailure]
      have hg : g ≠ .install := by
        rintro rfl
        obtain ⟨q, -, hq⟩ := Option.bind_eq_some_iff.1 hfailure
        rw [hinstall] at hq
        cases hq
      rw [InstallRequest.refused, if_neg hg]
      exact Acts.none.calls (isPlain_of_mem_callsThrough m p r g)
    · obtain ⟨q, -, hadd⟩ := add_of_accepted m p r hnone
      rw [hadd]
      exact settled_entered m p r q _
  | importLegacy entry => exact settled_importLegacy m p entry
  | remove fqdn uid privileged => exact settled_remove m p uid privileged fqdn
  | list uid privileged => exact .none
  | matchScan aps answers => cases hjob
  | revoke package connected => exact settled_authorizationChanged m p package
  | connected fqdn => exact settled_handle m p (.networkConnected fqdn)
  | autoJoin fqdn enabled =>
    exact enableAutoJoin_induction (I := fun m' => Acts true m true m')
      (fun _ _ _ _ acts => acts.change _) fqdn enabled .none
  | metrics => cases hjob

theorem operation_ne_restore (job : Job) (s : PersistedState) : job.operation ≠ .restore s := by
  cases job <;> exact fun h => nomatch h

end Job

/-! ### Platforms on the command line -/

theorem standIn_agree (now : Millis) (carriers : OrderedMap String Int32) (canStore : Bool)
    (c : Circumstances) (h h' : History) :
    (standIn now carriers canStore c h).Agree (standIn now carriers canStore c h') where
  install _ _ _ := rfl
  verify _ _ _ := rfl
  resolve _ _ := rfl
  isAuthorized _ _ _ _ _ := rfl

/-- Asking for the right of a package does not end the connection. -/
theorem connectedAtLoss_standIn (m : Manager) (now : Millis) (carriers : OrderedMap String Int32)
    (canStore : Bool) (c : Circumstances) (uid : UInt32) (package : String) :
    m.connectedAtLoss (standIn now carriers canStore c m.history) uid package = c.connected := by
  have hasked : callsSince m.history (.isAuthorized { uid, package } false :: m.history) =
      [.isAuthorized { uid, package } false] := callsSince_append [_] m.history
  unfold connectedAtLoss standIn
  dsimp only
  rw [hasked]
  rfl

/-! ### Launches -/

def Outcome.ofSaid : Except Failure String → Outcome
  | .ok text => .done text
  | .error failure => .failed failure

theorem storedTexts_eq (calls : List Call) :
    storedTexts calls = (calls.filterMap Call.stored?).map stateText := by
  rw [storedTexts, List.map_filterMap]
  congr 1
  funext call
  cases call <;> rfl

/-- A launch of the program: the files that it finds, the time, and the command line. -/
structure Launch where
  files : Files
  now : Millis
  invocation : Invocation

namespace Launch

def report (l : Launch) : Report := l.invocation.run l.files.disk l.now

def filesAfter (l : Launch) : Files := l.report.apply l.files

/-- The same command put to a manager that is there already: the manager does the operation of
    the command, and what is said of its reply is the outcome. -/
def serve (l : Launch) (path : String) (carriers : OrderedMap String Int32) (m : Manager) :
    Outcome × Manager :=
  match l.invocation.request.load l.files.disk with
  | .error failure => (.failed failure, m)
  | .ok job =>
    let platform :=
      standIn l.now carriers (l.files.disk.canReplace path) job.circumstances m.history
    let (reply, m') := m.perform platform job.operation
    (.ofSaid (job.said m m' reply), m')

/-- A launch with a command about the profiles, with these SIM cards and the state at a path
    where it can be stored. -/
structure Fits (path : String) (carriers : OrderedMap String Int32) (l : Launch) : Prop where
  settings : ∃ c, readConfiguration l.files.disk l.invocation.config = .ok c ∧
    l.invocation.statePath c.settings = path
  storable : l.files.disk.canReplace path = true
  carriers : readCarriers l.invocation.carriers = .ok carriers
  job : ∀ job, l.invocation.request.load l.files.disk = .ok job → job.IsOfProfiles

/-- The state at a path stands for a registry. -/
def Holds (fs : Files) (path : String) (r : Registry) : Prop :=
  ∃ s, readState fs.disk path = .ok s ∧ Registry.empty.restore s = r

variable {l : Launch} {path : String} {carriers : OrderedMap String Int32} {m m' : Manager}

/-- **A launch serves the manager that it starts from the state**, and saves what that stored
    last. -/
theorem report_eq (hfits : l.Fits path carriers) {s : PersistedState}
    (hstate : readState l.files.disk path = .ok s) :
    ∃ settings, let start := startedFrom settings .default s
      l.report.outcome = (l.serve path carriers start).1 ∧
      l.report.saved = ((callsSince start.history
        (l.serve path carriers start).2.history).filterMap Call.stored?).getLast?.map
          fun state => (path, stateText state) := by
  obtain ⟨c, hsettings, rfl⟩ := hfits.settings
  refine ⟨c.settings, ?_⟩
  unfold report Invocation.run serve
  rw [hsettings]
  dsimp only
  cases hload : l.invocation.request.load l.files.disk with
  | error failure =>
    have hrun : l.invocation.request.run l.files.disk l.now c.settings
        (l.invocation.statePath c.settings) l.invocation.carriers = .error failure := by
      unfold Request.run
      rw [hload]
      rfl
    rw [hrun, callsSince_self]
    exact ⟨rfl, rfl⟩
  | ok job =>
    rw [Request.run_eq hload hstate hfits.carriers]
    dsimp only
    rw [Job.perform_eq (hfits.job job hload), storedTexts_eq, List.getLast?_map, Option.map_map]
    refine ⟨?_, rfl⟩
    unfold Outcome.ofSaid
    rfl

/-- What a command says and makes of the registry is the same of two managers with one registry
    that watch the same packages. -/
theorem serve_congr (hfits : l.Fits path carriers) (hr : m.registry = m'.registry)
    (hwatch : ∀ package, package ≠ "" → m.isWatching package = m'.isWatching package) :
    SameEffect (l.serve path carriers m) (l.serve path carriers m') := by
  unfold serve
  cases hload : l.invocation.request.load l.files.disk with
  | error failure => exact ⟨rfl, hr⟩
  | ok job =>
    have heffect := Job.perform_congr (hfits.job job hload)
      (standIn_agree l.now carriers (l.files.disk.canReplace path) job.circumstances m.history
        m'.history) hr hwatch
      fun uid uid' package => by rw [connectedAtLoss_standIn, connectedAtLoss_standIn]
    rw [Job.perform_eq (hfits.job job hload), Job.perform_eq (hfits.job job hload)] at heffect
    exact ⟨congrArg Outcome.ofSaid heffect.1, heffect.2⟩

theorem settled_serve (hfits : l.Fits path carriers) (m : Manager) :
    Acts true m true (l.serve path carriers m).2 := by
  unfold serve
  cases hload : l.invocation.request.load l.files.disk with
  | error failure => exact .none
  | ok job => exact Job.settled (hfits.job job hload) fun _ _ => rfl

/-- What is known of a manager that never stops before each command: its registry is in order, and
    it watches the owners. -/
structure Orderly (m : Manager) : Prop where
  keyed : m.registry.Keyed
  numbered : m.registry.Numbered
  owners : WatchesOwners m

theorem orderly_new (settings : Settings) : Orderly (.new settings .default) where
  keyed := Registry.keyed_empty
  numbered := Registry.numbered_empty
  owners := watchesOwners_new settings .default

/-- From one manager to the next, the number of the next profile does not run over. -/
def NoWrap (m m' : Manager) : Prop :=
  m.registry.nextIndex = Registry.lastIndex → m'.registry.nextIndex = Registry.lastIndex

theorem Orderly.serve (h : Orderly m) (hlast : NoWrap m (l.serve path carriers m).2) :
    Orderly (l.serve path carriers m).2 := by
  unfold Launch.serve at hlast ⊢
  cases hload : l.invocation.request.load l.files.disk with
  | error failure => exact h
  | ok job =>
    rw [hload] at hlast
    dsimp only at hlast ⊢
    have hsuccession := succession_perform (m := m) (p := standIn l.now carriers
      (l.files.disk.canReplace path) job.circumstances m.history) job.operation_ne_restore
    exact ⟨h.keyed.succession hsuccession, h.numbered.succession hsuccession hlast,
      h.owners.perform _⟩

/-- A launch has the outcome that a manager gave, and leaves a state that stands for the registry
    of that manager. -/
structure Renders (path : String) (l : Launch) (served : Outcome × Manager) : Prop where
  outcome : l.report.outcome = served.1
  holds : Holds l.filesAfter path served.2.registry

/-- **One launch.**  When the state at the path stands for the registry of a manager, a launch does
    what this manager does. -/
theorem renders_serve (hfits : l.Fits path carriers) (horderly : Orderly m)
    (hlast : NoWrap m (l.serve path carriers m).2)
    (hholds : Holds l.files path m.registry) :
    l.Renders path (l.serve path carriers m) := by
  obtain ⟨s, hstate, hrestored⟩ := hholds
  obtain ⟨settings, houtcome, hsaved⟩ := report_eq hfits hstate
  have hafter := horderly.serve hlast
  let start := startedFrom settings .default s
  have hregistry : start.registry = m.registry := (startedFrom_registry _ _ _).trans hrestored
  have hwatch : ∀ package, package ≠ "" → start.isWatching package = m.isWatching package := by
    intro package hne
    have howners : WatchesOwners start := .restore _ s
    rw [howners.isWatching_eq hne, horderly.owners.isWatching_eq hne, hregistry]
  obtain ⟨hsame, hsameRegistry⟩ := serve_congr hfits hregistry hwatch
  refine ⟨houtcome.trans hsame, ?_⟩
  -- the file is as it was found, or has what was stored last
  rcases (settled_serve hfits start).same_or_stored with ⟨hunchanged, hnothing⟩ | hstored
  · rw [hnothing] at hsaved
    refine ⟨s, ?_, ?_⟩
    · rw [← hstate]
      unfold filesAfter Report.apply
      rw [hsaved]
      rfl
    · rw [hrestored, ← hregistry, ← hunchanged]
      exact hsameRegistry
  · rw [hstored, hsameRegistry] at hsaved
    have hlook : l.filesAfter.disk.look path =
        .file (stateText (l.serve path carriers m).2.registry.toState) := by
      unfold filesAfter Report.apply
      rw [hsaved]
      exact Files.look_save hfits.storable _
    refine ⟨(l.serve path carriers m).2.registry.toState, ?_, ?_⟩
    · unfold readState
      rw [hlook]
      dsimp only
      rw [readAs?_stateText]
    · exact Registry.restore_toState hafter.keyed hafter.numbered

/-! ### Many launches -/

/-- Launches one after the other, from what is found at the path: each finds there what the one
    before it left. -/
def Chained (path : String) : Place → List Launch → Prop
  | _, [] => True
  | found, l :: rest => l.files.look path = found ∧ Chained path (l.filesAfter.look path) rest

/-- The same commands put to one manager, each with its outcome and the manager after it. -/
def serveAll (path : String) (carriers : OrderedMap String Int32) :
    Manager → List Launch → List (Outcome × Manager)
  | _, [] => []
  | m, l :: rest =>
    let served := l.serve path carriers m
    served :: serveAll path carriers served.2 rest

theorem Holds.congr {fs fs' : Files} {r : Registry} (h : Holds fs path r)
    (hlook : fs'.look path = fs.look path) : Holds fs' path r := by
  obtain ⟨s, hstate, hrestored⟩ := h
  refine ⟨s, ?_, hrestored⟩
  unfold readState at hstate ⊢
  rw [show fs'.disk.look path = fs.disk.look path from hlook]
  exact hstate

/-- **Many launches**, by induction: each finds what the one before it left, which stands for the
    registry of the manager that serves the same commands. -/
theorem renders_serveAll {launches : List Launch} {fs : Files} (horderly : Orderly m)
    (hholds : Holds fs path m.registry) (hfits : ∀ l ∈ launches, l.Fits path carriers)
    (hchained : Chained path (fs.look path) launches)
    (hlast : (m :: (serveAll path carriers m launches).map Prod.snd).IsChain NoWrap) :
    List.Forall₂ (Renders path) launches (serveAll path carriers m launches) := by
  induction launches generalizing m fs with
  | nil => exact .nil
  | cons l rest ih =>
    obtain ⟨hl, hrest⟩ := List.forall_mem_cons.1 hfits
    obtain ⟨hfound, hchainedRest⟩ := hchained
    obtain ⟨hlastHere, hlastRest⟩ := List.isChain_cons_cons.1 hlast
    have hrenders := renders_serve hl horderly hlastHere (hholds.congr hfound)
    have hnext := horderly.serve hlastHere
    exact .cons hrenders (ih hnext hrenders.holds hrest hchainedRest hlastRest)

/-- **Launching the program again and again is serving one manager.**  Start without a stored
    state, and let each launch find what the one before it left.  When the numbers last, each launch
    has the outcome that the manager which never stops gives, by the operation of the command, and
    leaves a state that stands for its registry. -/
theorem launching_is_serving {launches : List Launch} (settings : Settings)
    (hfits : ∀ l ∈ launches, l.Fits path carriers) (hchained : Chained path .nothing launches)
    (hlast : (.new settings .default ::
      (serveAll path carriers (.new settings .default) launches).map Prod.snd).IsChain NoWrap) :
    List.Forall₂ (Renders path) launches
      (serveAll path carriers (.new settings .default) launches) := by
  cases launches with
  | nil => exact .nil
  | cons l rest =>
    have hnothing : l.files.look path = .nothing := hchained.1
    have hholds : Holds l.files path Registry.empty := by
      refine ⟨.empty, ?_, rfl⟩
      unfold readState
      rw [show l.files.disk.look path = .nothing from hnothing]
    exact renders_serveAll (orderly_new settings) hholds hfits (hnothing.symm ▸ hchained) hlast

theorem readConfiguration_of_nothing {d : Disk} {path : String} (h : d.look path = .nothing) :
    readConfiguration d path = .ok { settings := .default, isPassedOver := false } := by
  unfold readConfiguration
  rw [h]

def installing : Launch where
  files := { texts := .ofList [("profile",
    "\x7b\"home_sp\":\x7b\"fqdn\":\"a.b\",\"friendly_name\":\"A\"\x7d,\"credential\":" ++
      "\x7b\"realm\":\"r\",\"sim\":\x7b\"imsi\":\"123456*\",\"eap_type\":18\x7d\x7d\x7d")] }
  now := 0
  invocation :=
    { config := "settings", state := some "state", carriers := []
      request := .add "profile" 10 "shop" false }

/-- A launch after it that notes a connection to the profile's network. -/
def connecting : Launch where
  files := installing.filesAfter
  now := 1
  invocation :=
    { config := "settings", state := some "state", carriers := [], request := .connected "a.b" }

/-- The second launch finds the profile that the first one installed. -/
theorem launching_is_serving_connected :
    connecting.report.outcome = .done "a.b marked as connected" ∧
      Holds connecting.filesAfter "state"
        (connecting.serve "state" .empty
          (installing.serve "state" .empty (.new .default .default)).2).2.registry := by
  have hinstalling : installing.Fits "state" .empty := by
    refine ⟨⟨_, readConfiguration_of_nothing (by decide +kernel), rfl⟩, by decide +kernel, rfl, ?_⟩
    intro job hload
    change (readInput ProfileConfig installing.files.disk "profile" >>= fun config =>
      Except.ok (Job.add config ⟨10, "shop"⟩ false)) = .ok job at hload
    cases hread : readInput ProfileConfig installing.files.disk "profile" with
    | error failure =>
      rw [hread] at hload
      cases hload
    | ok config =>
      rw [hread] at hload
      obtain rfl := Except.ok.inj hload
      trivial
  have hconnecting : connecting.Fits "state" .empty := by
    refine ⟨⟨_, readConfiguration_of_nothing (by decide +kernel), rfl⟩, by decide +kernel, rfl, ?_⟩
    intro job hload
    obtain rfl : Job.connected "a.b" = job := Except.ok.inj hload
    trivial
  have hfits : ∀ l ∈ [installing, connecting], l.Fits "state" .empty := by
    intro l hl
    rcases List.mem_cons.1 hl with rfl | hl
    · exact hinstalling
    · exact List.mem_singleton.1 hl ▸ hconnecting
  have hfiles : connecting.files = installing.filesAfter := by rw [connecting]
  have hchained : Chained "state" .nothing [installing, connecting] := by
    refine ⟨by decide +kernel, ?_, trivial⟩
    rw [hfiles]
  have hlast : (Manager.new .default .default ::
      (serveAll "state" .empty (.new .default .default) [installing, connecting]).map
        Prod.snd).IsChain NoWrap := by
    unfold NoWrap
    decide +kernel
  have hserved := @launching_is_serving "state" .empty [installing, connecting] .default hfits
    hchained hlast
  rw [serveAll, serveAll, List.forall₂_cons, List.forall₂_cons] at hserved
  obtain ⟨-, ⟨houtcome, hholds⟩, -⟩ := hserved
  refine ⟨?_, hholds⟩
  rw [houtcome]
  decide +kernel

end Launch

end Command

end Hotspot
