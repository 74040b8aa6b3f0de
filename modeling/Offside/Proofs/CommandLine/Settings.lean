import Offside.Proofs.CommandLine.EmptyBodies
import Offside.Proofs.CommandLine.Flags
import Offside.Proofs.CommandLine.Requests
import Offside.Proofs.Config.Loading

/-!
# The settings that a command line is carried out with

The layers that decide about a conversion are those in the file of the user and in that of
the project, and then the flags of the command line. The conversion is carried out with the
options that these layers come to (`convertUnder`), and nothing else has a say
(`runArguments_convert`).

A command may fail, and loading the settings may not. So loading is lifted, and what it
comes to is known already (`run_loadLayers`).
-/

namespace Offside

section Lift

variable {ε : Type} {m : Type → Type} [Monad m] [LawfulMonad m] [MonadFiles m]

/-- A command that may fail loads a file as one that may not. -/
theorem loadLayer_eq_lift (p : Path) :
    (loadLayer p : ExceptT ε m Layer) = ExceptT.lift (loadLayer p) := by
  rw [loadLayer, loadLayer, readText_eq_lift]
  ext
  rw [ExceptT.run_bind_lift, ExceptT.run_lift, map_bind]
  refine bind_congr fun read => ?_
  cases read with
  | error e => simp
  | ok text => cases htext : Layer.ofText text <;> simp [htext, MonadFiles.log, Except.map]

/-- A command that may fail loads the settings as one that may not. -/
theorem loadLayers_eq_lift (global : Option Path) (root : Path) :
    (loadLayers global root : ExceptT ε m Layer) = ExceptT.lift (loadLayers global root) := by
  ext
  cases global <;> simp [loadLayers, loadLayer_eq_lift, Except.map]

end Lift

/-- How a command line ends after the answer of a command. -/
def Exit.ofAnswer {α : Type} : Except Failure α → Exit
  | .ok _ => .success
  | .error f => .failed f

/-- **A conversion under the settings in files and further layers.** It is carried out with
the options that the layers come to, after what is said of the files. -/
def convertUnder (w : World) (files : List Path) (layers : List Layer) (input : Path)
    (output : Option Path) : Exit × World :=
  let (answer, w') := conversionIn (w.record (files.filterMap (heard? w))) input output
    (Layer.mergeAll (files.map (layerAt w) ++ layers)).toOptions
  (.ofAnswer answer, w')

/-- Layers that are merged first are the same layers. -/
theorem convertUnder_mergeAll (w : World) (files : List Path) (layers : List Layer) (input : Path)
    (output : Option Path) :
    convertUnder w files [.mergeAll layers] input output
      = convertUnder w files layers input output := by
  rw [convertUnder, convertUnder, Layer.mergeAll_append, Layer.mergeAll_singleton,
    ← Layer.mergeAll_append]

section Run

variable {args : List String} {verbose : Bool} {input : Path} {output : Option Path}
  {flags : Layer}

/-- **A conversion is carried out under the settings in the two files and the flags.** -/
theorem run_convert (w : World) (e : Environment) (directory : Path) :
    ((Request.command verbose (.convert input output flags)).run e directory :
        StateM World Exit).run w
      = convertUnder w (settingsFiles e.globalSettings? directory) [flags] input output := by
  rw [Request.run, Command.run, loadLayers_eq_lift, ExceptT.run_bind_lift, bind_assoc,
    run_bind_of_run (run_loadLayers e.globalSettings? directory w),
    ← Layer.mergeAll_append_singleton, convertUnder, conversionIn, ExceptT.run_bind, bind_assoc,
    StateT.run_bind]
  -- of the answer only counts whether it is one
  generalize (convertFile input output _ : ExceptT Failure (StateM World) _).run.run _ = answer
  obtain ⟨_ | _, w'⟩ := answer <;> rfl

/-- So is a command line that asks for a conversion. -/
theorem runArguments_convert
    (h : Request.ofArguments args = some (.command verbose (.convert input output flags)))
    (w : World) (e : Environment) (directory : Path) :
    (runArguments e directory args : StateM World Exit).run w
      = convertUnder w (settingsFiles e.globalSettings? directory) [flags] input output := by
  rw [runArguments, h]
  exact run_convert w e directory

/-- A command line with `--no-pass` is a layer that leaves bodies empty, and one without it
says nothing about them. -/
theorem passEmptyBodies_of_ofArguments
    (h : Request.ofArguments args = some (.command verbose (.convert input output flags))) :
    flags.passEmptyBodies = if asksForNoPass args then some false else none :=
  passEmptyBodies_of_parseRequest (parseRequest_of_ofArguments h)

end Run

/-- **The last layer decides.**

* Under a sequence of layers each option is what the last layer that sets it sets it to, or
  its default if none does.
* So merging is associative, the layer that sets nothing changes nothing on either side, and
  layers can be merged in groups.
* A file that is missing, cannot be read, or is no valid file of settings sets nothing.
* A command line that asks for a conversion is carried out with the options of the layer in
  the file of the user, that in the file of the project, and that of its flags, in this
  order. The last of them leaves bodies empty if `--no-pass` is among the arguments, and has
  no say about them otherwise.
* Any flags, each given once, are such a command line, and each of them is a layer of its
  own. -/
theorem lastLayer_decides :
    (∀ layers : List Layer, (Layer.mergeAll layers).toOptions = {
      indentWidth := (Layer.lastSet Layer.indentWidth layers).getD 4
      lineEnding := (Layer.lastSet Layer.lineEnding layers).getD .crlf
      passEmptyBodies := (Layer.lastSet Layer.passEmptyBodies layers).getD true
      callArguments := (Layer.lastSet Layer.callArguments layers).getD .literals })
    ∧ (∀ a b c : Layer, (a.merge b).merge c = a.merge (b.merge c))
    ∧ (∀ l : Layer, Layer.unset.merge l = l ∧ l.merge .unset = l)
    ∧ (∀ groups : List (List Layer),
      Layer.mergeAll (groups.map Layer.mergeAll) = Layer.mergeAll groups.flatten)
    ∧ (∀ (w : World) (p : Path),
      (∀ bytes, bytesAt? w p = some bytes → Layer.ofBytes bytes = none) →
        layerAt w p = .unset)
    ∧ (∀ (w : World) (e : Environment) (directory : Path) (args : List String) (verbose : Bool)
      (input : Path) (output : Option Path) (flags : Layer),
      Request.ofArguments args = some (.command verbose (.convert input output flags)) →
        (runArguments e directory args : StateM World Exit).run w
            = convertUnder w (settingsFiles e.globalSettings? directory) [flags] input output
          ∧ flags.passEmptyBodies = if asksForNoPass args then some false else none)
    ∧ ∀ (w : World) (e : Environment) (directory : Path) (input : String) (flags : List Flag),
      input ≠ "" → input.toList.head? ≠ some '-' → (flags.map Flag.name).Nodup →
        (runArguments e directory ("convert" :: input :: flags.flatMap Flag.arguments) :
            StateM World Exit).run w
          = convertUnder w (settingsFiles e.globalSettings? directory) (flags.map Flag.layer)
            ⟨input⟩ none := by
  refine ⟨Layer.toOptions_mergeAll, Layer.merge_assoc, fun l => ⟨l.unset_merge, l.merge_unset⟩,
    fun groups => (Layer.mergeAll_flatten groups).symm, ?_, ?_, ?_⟩
  · intro w p hnone
    rw [layerAt, Option.bind_eq_none_iff.mpr hnone]
    rfl
  · intro w e directory args verbose input output flags h
    exact ⟨runArguments_convert h w e directory, passEmptyBodies_of_ofArguments h⟩
  · intro w e directory input flags hne hdash hnodup
    rw [runArguments_convert (ofArguments_flags hne hdash hnodup) w e directory,
      convertUnder_mergeAll]

/-- A world in which the settings of the user have a fault in their last line. -/
def faultyWorld : World :=
  .ofFiles ⟨[(["xdg"], .directory), (["xdg", "codeconv"], .directory),
    (["xdg", "codeconv", "config.toml"],
      .file "[output]\nindent_width = 8\nline_ending = 3\n".toUTF8),
    (["proj"], .directory), (["proj", ".codeconv"], .directory),
    (["proj", ".codeconv", "config.toml"],
      .file "[output]\nindent_width = 2\nline_ending = \"lf\"\n".toUTF8)]⟩ []

/-- The settings of the user set nothing, not even what stands before the fault. A flag
wins over the settings of the project, however the command line is written. -/
theorem faultyWorld_lastLayer_decides :
    layerAt faultyWorld ⟨"xdg/codeconv/config.toml"⟩ = .unset
    ∧ (runArguments ⟨some "xdg", none⟩ ⟨"proj"⟩
          ["-v", "convert", "--no-pass", "--indent=3", "-ocode.py", "code.json"] :
        StateM World Exit).run faultyWorld
      = convertUnder faultyWorld (settingsFiles (some ⟨"xdg/codeconv/config.toml"⟩) ⟨"proj"⟩)
        [{ indentWidth := some 3, passEmptyBodies := some false }] ⟨"code.json"⟩
        (some ⟨"code.py"⟩)
    ∧ (runArguments ⟨some "xdg", none⟩ ⟨"proj"⟩
          ["convert", "code.json", "--no-pass", "--indent", "3"] : StateM World Exit).run faultyWorld
      = convertUnder faultyWorld (settingsFiles (some ⟨"xdg/codeconv/config.toml"⟩) ⟨"proj"⟩)
        [Flag.noPass.layer, (Flag.indent 3).layer] ⟨"code.json"⟩ none
    ∧ (Layer.mergeAll ((settingsFiles (some ⟨"xdg/codeconv/config.toml"⟩) ⟨"proj"⟩).map
          (layerAt faultyWorld) ++ [Flag.noPass.layer, (Flag.indent 3).layer])).toOptions
      = { indentWidth := 3, lineEnding := .lf, passEmptyBodies := false } := by
  obtain ⟨hoptions, -, -, -, hunset, hrun, hflags⟩ := lastLayer_decides
  refine ⟨hunset _ _ ?_, (hrun _ _ _ _ true _ _ _ ?_).1, ?_, ?_⟩
  · have hfault :
        (bytesAt? faultyWorld ⟨"xdg/codeconv/config.toml"⟩).bind Layer.ofBytes = none := by
      decide +kernel
    exact Option.bind_eq_none_iff.mp hfault
  · decide +kernel
  · exact hflags faultyWorld ⟨some "xdg", none⟩ ⟨"proj"⟩ "code.json" [.noPass, .indent 3]
      (by decide) (by decide) (by decide)
  · rw [hoptions]
    decide +kernel

end Offside
