import Highlighter.Theme.Loading

/-! Where theme files are: a configured theme is a path, or the name of a theme that an installed
editor brings along. -/

namespace Highlighter

open Highlighter.Files (FileError Path Tree)

/-- What is known of the machine: its environment variables, the name of its system, the user's
directory and the directory in which the program runs. -/
structure Machine where
  environment : List (String × String) := []
  system : String := "Linux"
  home : Path := default
  cwd : Path := default
  deriving Repr, Inhabited

namespace Machine

/-- The value of a variable, where it is set to a text that is not empty. -/
def setting? (m : Machine) (name : String) : Option String :=
  (m.environment.lookup name).filter (· != "")

end Machine

namespace Theme

/-- The place of the themes in an installation. -/
def installed : Path := .ofString "resources/app/extensions/theme-defaults/themes"

/-- The place of the themes in an application bundle. -/
def bundled : Path := .ofString "Contents/Resources/app/extensions/theme-defaults/themes"

def overrideDirectories (m : Machine) : List Path :=
  match m.setting? "VSCODE_PATH" with
  | none => []
  | some place =>
    let base := Path.ofString place
    [base.join installed, base.join bundled, base]

/-- Where each system keeps its installations. -/
def systemDirectories (m : Machine) : List Path :=
  match m.system with
  | "Darwin" =>
    [(Path.ofString "/Applications/Visual Studio Code.app").join bundled,
      (Path.ofString "/Applications/Visual Studio Code - Insiders.app").join bundled,
      (m.home.child "Applications/Visual Studio Code.app").join bundled]
  | "Windows" =>
    let ofUser := match m.setting? "LOCALAPPDATA" with
      | none => []
      | some place => ["Microsoft VS Code", "Microsoft VS Code Insiders"].map fun product =>
          (((Path.ofString place).child "Programs").child product).join installed
    let ofAll := match m.setting? "ProgramFiles" with
      | none => []
      | some place => [((Path.ofString place).child "Microsoft VS Code").join installed]
    ofUser ++ ofAll
  | "Linux" =>
    ["/usr/share/code", "/usr/share/code-insiders", "/opt/visual-studio-code"].map fun root =>
      (Path.ofString root).join installed
  | _ => []

/-- The directories that may hold themes, in the order in which they are tried. -/
def directoryCandidates (m : Machine) : List Path := overrideDirectories m ++ systemDirectories m

/-- Whether something is true of the place of a path, as far as the path is not too long. -/
def probe (test : Path → Except FileError Bool) (cwd p : Path) : Except FileError Bool :=
  (test (cwd.join p)).mapError fun e => { e with path := p.toString }

/-- The first of the directories that is there. -/
def findDirectory (tree : Tree) (m : Machine) : Except FileError (Option Path) :=
  (directoryCandidates m).findM? fun p => probe tree.isDirectory m.cwd p

/-- A configured theme is a path if it ends in `.json` or has a slash of either kind. -/
def looksLikePath (value : String) : Bool :=
  ".json".toList.isSuffixOf value.toList || value.toList.contains '/' || value.toList.contains '\\'

/-- The file of a configured theme. A name is looked for in the given directory or, without one, in
the first that is found. -/
def locate (tree : Tree) (m : Machine) (base : Path) (directory : Option Path) (value : String) :
    Except ThemeFailure Path := do
  if looksLikePath value then (Path.resolve m.cwd (base.child value)).mapError .path
  else
    let found ← match directory with
      | some d => pure (some d)
      | none => (findDirectory tree m).mapError .file
    match found with
    | none => throw (.theme (.noDirectory value))
    | some directory =>
      let file := directory.child (value ++ ".json")
      if ← (probe tree.isFile m.cwd file).mapError .file then return file
      else throw (.theme (.unknownName value directory file))

end Theme

end Highlighter
