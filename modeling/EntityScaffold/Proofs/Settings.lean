import EntityScaffold.Settings

/-!
# Where settings come from

Settings that are valid were read one by one: each is what its reader makes of the value given for
it (`ReadFrom`).
-/

namespace EntityScaffold.Settings

/-- Each setting is what its reader makes of the value given for it. -/
structure ReadFrom (origin : Origin) (settings : Settings) : Prop where
  modelFile : readPath (origin.value? "jdl_file") = .ok settings.modelFile
  outputFolder : readPath (origin.value? "output_folder") = .ok settings.outputFolder
  microservice : readMicroservice (origin.value? "microservice") = .ok settings.microservice
  apiHost : readApiHost (origin.value? "api_host") = .ok settings.apiHost
  pluralStyle : readPluralStyle (origin.value? "plural_style") = .ok settings.pluralStyle
  strict : readSwitch (origin.value? "strict") = .ok settings.strict

theorem readFrom_of_ofOrigin {origin : Origin} {settings : Settings}
    (h : ofOrigin origin = .ok settings) : ReadFrom origin settings := by
  unfold ofOrigin at h
  simp only at h
  split at h
  · rename_i hfile hfolder hservice hhost hstyle hstrict
    obtain rfl := Except.ok.inj h
    exact ⟨hfile, hfolder, hservice, hhost, hstyle, hstrict⟩
  · exact absurd h (by simp)

/-- A text that is given for a path spells it. -/
theorem eq_ofString_of_readPath {text : String} {path : Path}
    (h : readPath (some (.text text)) = .ok path) : path = .ofString text :=
  (Except.ok.inj h).symm

end EntityScaffold.Settings
