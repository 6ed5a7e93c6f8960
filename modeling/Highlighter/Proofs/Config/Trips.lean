import Highlighter.Proofs.Slips
import Mathlib.Tactic.ByContra

/-! What can stop the loading of a configuration, other than an error of its own. -/

namespace Highlighter

open Highlighter.Files (Path PathFault Tree FileError bind_eq_ok mapError_eq_ok)

def ConfigFailure.Told : ConfigFailure → Prop
  | .config _ => True
  | .undecodable | .hugeInteger | .path _ => False

theorem ConfigFailure.told_iff {f : ConfigFailure} : f.Told ↔ ∃ e, f = .config e := by
  cases f <;> simp [Told]

namespace Config

/-- The settings of a model that are paths. -/
def Model.places (m : Model) : List String :=
  m.grammar :: m.extraGrammars.map (·.2) ++ m.files ++ [m.outDir, m.snapshotDir].filterMap filled

/-- What ends the program while a configuration is loaded: its path or one that it sets cannot be the path
of a file, its bytes are no text, or a decimal integer is too long to be read. -/
inductive Trips (tree : Tree) (cwd path : Path) : Prop
  | path {f : PathFault} : Path.resolve cwd path = .error f → Trips tree cwd path
  | bytes {file : Path} {content : Text.Bytes} : Path.resolve cwd path = .ok file →
      tree.read file = .ok content → Text.decodeUtf8? content = none → Trips tree cwd path
  | integer {file : Path} {text : List Char} : Path.resolve cwd path = .ok file →
      tree.readText file = .ok (some text) → Toml.read text = .error .hugeInteger →
      Trips tree cwd path
  | place {file : Path} {text : List Char} {table : Table} {m : Model} {s : String} :
      Path.resolve cwd path = .ok file → tree.readText file = .ok (some text) →
      Toml.read text = .ok table → Model.check .standard table = .ok m → s ∈ m.places →
      '\x00' ∈ s.toList → Trips tree cwd path

variable {tree : Tree} {cwd path file : Path} {m : Model}

theorem ofModel_ok_iff (hfile : file.fault? = none) :
    (∃ c, ofModel file m = .ok c) ↔ ∀ s ∈ m.places, '\x00' ∉ s.toList := by
  unfold ofModel
  extract_lets base place placeOr
  have hplace (s : String) : (∃ p, place s = .ok p) ↔ '\x00' ∉ s.toList := by
    rw [← Path.resolve_ofString_error_iff (Path.faultless_parent hfile)]
    dsimp only [place, base]
    cases Path.resolve file.parent (.ofString s) <;> simp
  have hpair (e : String × String) :
      (∃ pair, (do return (e.1, ← place e.2) : Except PathFault _) = .ok pair) ↔
        '\x00' ∉ e.2.toList := by
    rw [← hplace]
    constructor
    · rintro ⟨pair, h⟩
      obtain ⟨p, hp, -⟩ := bind_eq_ok.mp h
      exact ⟨p, hp⟩
    · rintro ⟨p, hp⟩
      exact ⟨(e.1, p), bind_eq_ok.mpr ⟨p, hp, rfl⟩⟩
  have hfilled (absent : String) (s : Option String) :
      (∃ p, placeOr absent s = .ok p) ↔ ∀ s' ∈ filled s, '\x00' ∉ s'.toList := by
    dsimp only [placeOr]
    cases filled s with
    | none => simp
    | some s => simpa using hplace s
  have hplaces : (∀ s ∈ m.places, '\x00' ∉ s.toList) ↔
      '\x00' ∉ m.grammar.toList ∧
      (∀ e ∈ m.extraGrammars, '\x00' ∉ e.2.toList) ∧
      (∀ s ∈ m.files, '\x00' ∉ s.toList) ∧
      (∀ s ∈ filled m.outDir, '\x00' ∉ s.toList) ∧
      ∀ s ∈ filled m.snapshotDir, '\x00' ∉ s.toList := by
    have hlast : (∀ s ∈ [m.outDir, m.snapshotDir].filterMap filled, '\x00' ∉ s.toList) ↔
        (∀ s ∈ filled m.outDir, '\x00' ∉ s.toList) ∧
        ∀ s ∈ filled m.snapshotDir, '\x00' ∉ s.toList := by
      simp [or_imp, forall_and]
    rw [← hlast]
    simp only [Model.places, List.cons_append, List.forall_mem_cons, List.forall_mem_append,
      List.forall_mem_map, and_assoc]
  rw [hplaces, ← hplace, ← hfilled "out", ← hfilled "snapshots"]
  simp only [← hpair, ← hplace, ← mapM_ok_iff]
  simp only [bind_eq_ok]
  constructor
  · rintro ⟨c, grammar, hgrammar, extras, hextras, files, hfiles, outDir, hout, snapshotDir, hsnapshots, -⟩
    exact ⟨⟨grammar, hgrammar⟩, ⟨extras, hextras⟩, ⟨files, hfiles⟩, ⟨outDir, hout⟩, snapshotDir, hsnapshots⟩
  · rintro ⟨⟨grammar, hgrammar⟩, ⟨extras, hextras⟩, ⟨files, hfiles⟩, ⟨outDir, hout⟩, snapshotDir, hsnapshots⟩
    exact ⟨_, grammar, hgrammar, extras, hextras, files, hfiles, outDir, hout, snapshotDir, hsnapshots, rfl⟩

theorem readText_slips : Slips ConfigFailure.Told (readText tree file) ↔
    ∃ content, tree.read file = .ok content ∧ Text.decodeUtf8? content = none := by
  unfold readText Tree.readText
  cases tree.read file with
  | error e =>
    rw [show (Except.error e : Except FileError Text.Bytes).map _ = .error e from rfl, slips_error]
    split <;> simp [ConfigFailure.Told]
  | ok content =>
    rw [show (Except.ok content : Except FileError Text.Bytes).map _ = .ok _ from rfl]
    cases hdecode : Text.decodeUtf8? content with
    | none =>
      dsimp only [Option.map_none]
      rw [slips_error]
      simp [ConfigFailure.Told, hdecode]
    | some text =>
      dsimp only [Option.map_some]
      simp [not_slips_ok, hdecode]

theorem readText_ok {text : List Char} :
    readText tree file = .ok text ↔ tree.readText file = .ok (some text) := by
  unfold readText
  split <;> simp [*]

/-- Loading a configuration ends otherwise than by a configuration or one of its errors exactly if
something trips it. -/
theorem load_slips : Slips ConfigFailure.Told (load tree cwd path) ↔ Trips tree cwd path := by
  unfold load
  rw [slips_bind, slips_mapError]
  constructor
  · rintro (⟨f, hf, -⟩ | ⟨file, hfile, h⟩)
    · exact .path hf
    have hfile := mapError_eq_ok.mp hfile
    rcases slips_bind.mp h with h | ⟨text, htext, h⟩
    · obtain ⟨content, hread, hdecode⟩ := readText_slips.mp h
      exact .bytes hfile hread hdecode
    have htext := readText_ok.mp htext
    split at h
    · rename_i hread
      exact .integer hfile htext hread
    · exact absurd trivial (slips_error.mp h)
    · rename_i table hread
      split at h
      · exact absurd trivial (slips_error.mp h)
      · rename_i m hmodel
        by_contra hnone
        have hplaces : ∀ s ∈ m.places, '\x00' ∉ s.toList := by
          intro s hs hnamed
          exact hnone (.place hfile htext hread hmodel hs hnamed)
        obtain ⟨c, hc⟩ := (ofModel_ok_iff (Path.faultless_of_resolve hfile)).mpr hplaces
        rw [hc] at h
        exact not_slips_ok h
  · rintro (hf | ⟨hfile, hread, hdecode⟩ | ⟨hfile, htext, hread⟩ | ⟨hfile, htext, hread, hmodel, hs, hnamed⟩)
    · exact .inl ⟨_, hf, id⟩
    all_goals refine .inr ⟨_, mapError_eq_ok.mpr hfile, slips_bind.mpr ?_⟩
    · exact .inl (readText_slips.mpr ⟨_, hread, hdecode⟩)
    · refine .inr ⟨_, readText_ok.mpr htext, ?_⟩
      rw [hread]
      exact slips_error.mpr id
    · refine .inr ⟨_, readText_ok.mpr htext, ?_⟩
      simp only [hread, hmodel]
      rw [slips_mapError]
      rename_i file _ _ m s
      cases hc : ofModel file m with
      | error f => exact slips_error.mpr id
      | ok c =>
        exact absurd hnamed ((ofModel_ok_iff (Path.faultless_of_resolve hfile)).mp ⟨c, hc⟩ s hs)

end Config

end Highlighter
