/-
  Hotspot/Proofs/StoredForms.lean
  ===============================
  **What is stored comes back.**

  The stored state, the inputs of the commands and the keys and elements of the metadata cache
  each have a lawful form, built up from the forms of their fields
  (`Hotspot/Proofs/JsonForms.lean`).  So their text denotes the value it was written for, whichever layout it is in, and a text that
  somebody else wrote turns, once read and written, into one that stays as it is (`RoundTrips`).

  For the state this reaches to the file: a state whose text took the place of a file is the state
  that the next run starts from (`stored_forms_round_trip`).
-/
import Hotspot.Proofs.JsonForms
import Hotspot.Proofs.SavedFiles
import Hotspot.Command.Session

namespace Hotspot

open Json

/-! ### Enumerations -/

instance : LawfulJsonForm CredentialType where
  readable t := readable_str t.name
  ofJson?_toJson t := by cases t <;> decide

instance : LawfulJsonForm ProfileSource where
  readable s := readable_str s.name
  ofJson?_toJson s := by cases s <;> decide

instance : LawfulJsonForm Legacy.EapMethod where
  readable m := readable_str m.name
  ofJson?_toJson m := by cases m <;> decide

instance : LawfulJsonForm Legacy.Phase2 where
  readable m := readable_str m.name
  ofJson?_toJson m := by cases m <;> decide

/-! ### Profiles -/

instance : LawfulJsonForm UserCredential where
  readable c := readable_obj (by simp)
  ofJson?_toJson c := by
    unfold instJsonFormUserCredential
    simp

instance : LawfulJsonForm SimCredential where
  readable c := readable_obj (by simp)
  ofJson?_toJson c := by
    unfold instJsonFormSimCredential
    simp

instance : LawfulJsonForm CertificateCredential where
  readable c := readable_obj (by simp)
  ofJson?_toJson c := by
    unfold instJsonFormCertificateCredential
    simp

instance : NeverNull UserCredential := ⟨fun _ h => by cases h⟩
instance : NeverNull SimCredential := ⟨fun _ h => by cases h⟩
instance : NeverNull CertificateCredential := ⟨fun _ h => by cases h⟩

instance : LawfulJsonForm Credential where
  readable c := readable_obj (by simp)
  ofJson?_toJson c := by
    unfold instJsonFormCredential
    simp

instance : LawfulJsonForm HomeSp where
  readable sp := readable_obj (by simp)
  ofJson?_toJson sp := by
    unfold instJsonFormHomeSp
    simp

instance : NeverNull Credential := ⟨fun _ h => by cases h⟩
instance : NeverNull HomeSp := ⟨fun _ h => by cases h⟩

instance : LawfulJsonForm ProfileConfig where
  readable c := readable_obj (by simp)
  ofJson?_toJson c := by
    unfold instJsonFormProfileConfig
    simp

instance : LawfulJsonForm AppIdentity where
  readable app := readable_obj (by simp)
  ofJson?_toJson app := by
    unfold instJsonFormAppIdentity
    simp

instance : LawfulJsonForm Profile where
  readable p := readable_obj (by simp)
  ofJson?_toJson p := by
    unfold instJsonFormProfile
    simp

instance : LawfulJsonForm PersistedState where
  readable s := readable_obj (by simp)
  ofJson?_toJson s := by
    unfold instJsonFormPersistedState
    simp

/-! ### Legacy entries -/

namespace Legacy

instance : LawfulJsonForm Enterprise where
  readable e := readable_obj (by simp)
  ofJson?_toJson e := by
    unfold instJsonFormEnterprise
    simp

instance : LawfulJsonForm Entry where
  readable e := readable_obj (by simp)
  ofJson?_toJson e := by
    unfold instJsonFormEntry
    simp

end Legacy

/-! ### Access points -/

theorem Hex.ofText?_toText (bytes : Bytes) : Hex.ofText? (Hex.toText bytes) = some bytes := by
  rw [Hex.ofText?, Hex.toText, String.toList_ofList, Hex.decode?_encode]

instance : LawfulJsonForm InformationElement where
  readable e := readable_obj (by simp [readable_str])
  ofJson?_toJson e := by
    unfold instJsonFormInformationElement
    simp [Hex.ofText?_toText]

instance : LawfulJsonForm AccessPoint where
  readable ap := readable_obj (by simp)
  ofJson?_toJson ap := by
    unfold instJsonFormAccessPoint
    simp

instance : LawfulJsonForm IdentityKey where
  readable k := readable_obj (by simp)
  ofJson?_toJson k := by
    unfold IdentityKey.instJsonForm
    simp

/-! ### Metadata elements -/

namespace Anqp

theorem Element.readable_content (e : Element) : e.content.Readable := by
  cases e <;> exact LawfulJsonForm.readable _

theorem Element.ofContent?_content (e : Element) :
    Element.ofContent? e.content e.kind = some e := by
  cases e <;> simp [Element.content, Element.names, Element.kind, Element.ofContent?]

instance : LawfulJsonForm Element where
  readable e := readable_obj (by simp [readable_str, Element.readable_content])
  ofJson?_toJson e := by
    unfold Element.instJsonForm
    simp [Kind.ofName?_name, Element.ofContent?_content]

instance : LawfulJsonForm Elements where
  readable es := readable_obj fun m hm => by
    obtain ⟨e, -, rfl⟩ := List.mem_map.1 hm
    exact LawfulJsonForm.readable e.2
  ofJson?_toJson es := by
    have hentries : (es.entries.map fun e => (e.1.name, toJson e.2)).mapM (fun m => do
        some (← Kind.ofName? m.1, ← (ofJson? m.2 : Option Element))) = some es.entries := by
      refine mapM_map_eq_some (fun e => ?_) es.entries
      simp [Kind.ofName?_name]
    unfold instJsonFormElements
    simp only [members?_obj, Option.bind_eq_bind, Option.bind_some] at hentries ⊢
    rw [hentries, Option.bind_some, OrderedMap.ofList_entries]

end Anqp

/-! ### Texts and files -/

/-- A form whose texts keep their value.  A value is read from the text that is written for it.  A
    text that is read as a value need not be the one written for it, but what is written instead
    is read again and written the same. -/
structure RoundTrips (α : Type) [JsonForm α] : Prop where
  reads_back : ∀ (l : Layout) (a : α), readAs? α (l.text (toJson a)) = some a
  settles : ∀ (l : Layout) (text : String) (a : α), readAs? α text = some a →
    ∃ b, readAs? α (l.text (toJson a)) = some b ∧ l.text (toJson b) = l.text (toJson a)

theorem readAs?_text {α : Type} [JsonForm α] [LawfulJsonForm α] (l : Layout) (a : α) :
    readAs? α (l.text (toJson a)) = some a := by
  rw [readAs?, (LawfulJsonForm.readable a).parse?_text l]
  exact ofJson?_toJson a

theorem roundTrips {α : Type} [JsonForm α] [LawfulJsonForm α] : RoundTrips α where
  reads_back := readAs?_text
  settles l _ a _ := ⟨a, readAs?_text l a, rfl⟩

namespace Command

theorem readAs?_stateText (s : PersistedState) : readAs? PersistedState (stateText s) = some s :=
  readAs?_text .indented s

/-- **The stored formats keep every value.** -/
theorem stored_forms_round_trip :
    RoundTrips PersistedState ∧ RoundTrips ProfileConfig ∧ RoundTrips Legacy.Entry ∧
    RoundTrips AccessPoint ∧ RoundTrips Anqp.Element ∧ RoundTrips Anqp.Elements ∧
    RoundTrips IdentityKey ∧
    ∀ (fs fs' : Files) (path : String) (s : PersistedState),
      fs.replace? path (stateText s) = some fs' → readState fs'.disk path = .ok s := by
  refine ⟨roundTrips, roundTrips, roundTrips, roundTrips, roundTrips, roundTrips, roundTrips,
    fun fs fs' path s hreplaced => ?_⟩
  have hlook : fs'.disk.look path = .file (stateText s) := Files.look_of_replace? hreplaced
  simp only [readState, hlook, readAs?_stateText]

/-- A profile with a number at the end of the range, a quote in a name and a line break in another
    is stored and found again. -/
theorem stored_forms_round_trip_escapes :
    let sp : HomeSp :=
      { fqdn := "a.example", friendlyName := "\"A\"\n", ois := [18446744073709551615] }
    let config : ProfileConfig :=
      { ProfileConfig.empty with homeSp := some sp, carrierId := some (-1) }
    let s : PersistedState :=
      { profiles := [.new config 18446744073709551614 ⟨10, "shop"⟩ .suggested .sim]
        nextIndex := 18446744073709551615 }
    ∃ fs, Files.empty.replace? "state.json" (stateText s) = some fs ∧
      readState fs.disk "state.json" = .ok s := by
  intro sp config s
  have hcan : (Files.empty.replace? "state.json" (stateText s)).isSome = true := by decide +kernel
  obtain ⟨fs, hfs⟩ := Option.isSome_iff_exists.1 hcan
  exact ⟨fs, hfs, stored_forms_round_trip.2.2.2.2.2.2.2 Files.empty fs "state.json" s hfs⟩

end Command

end Hotspot
