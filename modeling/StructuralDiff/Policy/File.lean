import StructuralDiff.Policy.Draft
import StructuralDiff.Reading

/-!
# Policy files

A policy file is a TOML document with at most the flags, each under its name, and
the name of a report format. Its settings are as loose as those of a command line,
and they are checked in the same place: when a draft becomes a policy.
-/

namespace StructuralDiff

namespace Setting

mutual

/-- The setting that a TOML value stands for. Moments and tables stand for none. -/
def ofToml? : Toml → Option Setting
  | .bool known => some (.bool known)
  | .integer known => some (.int known)
  | .float known => some (.float known)
  | .text known => some (.text known)
  | .array items => (itemsOfToml? items).map Setting.list
  | .moment _ => none
  | .table _ => none

/-- The settings that TOML values stand for, when each stands for one. -/
def itemsOfToml? : List Toml → Option (List Setting)
  | [] => some []
  | item :: items => do
    let setting ← ofToml? item
    let settings ← itemsOfToml? items
    return setting :: settings

end

end Setting

/-- Why there is no policy file to read. -/
inductive PolicyFileError where
  | unreadable (name : String) (fault : FileFault)
  | malformed (name : String)
deriving DecidableEq

namespace PolicyFileError

/-- The error in words. -/
def message : PolicyFileError → String
  | .unreadable name fault => "Failed to read config file " ++ name ++ ": " ++ fault.message
  | .malformed name => "Invalid config file " ++ name

/-- The reason behind the error, where it has one of its own. -/
def cause? : PolicyFileError → Option String
  | .unreadable _ fault => some fault.message
  | .malformed _ => none

end PolicyFileError

/-- What a policy file says. -/
structure PolicyFile where
  /-- The name of a report format, not checked yet. -/
  format : Option String
  /-- The flags that have a setting, in the order of the file. -/
  settings : List (Flag × Setting)

namespace PolicyFile

/-- A file that says nothing. -/
def empty : PolicyFile := ⟨none, []⟩

/-- The name of the entry for the report format. -/
def formatName : String := "format"

/-- Add one entry of a file. An entry that is neither the format nor a flag is
refused, and so is a value that is no setting. -/
def add? (file : PolicyFile) (name : String) (content : Toml) : Option PolicyFile :=
  if name == formatName then
    match content with
    | .text format => some { file with format := some format }
    | _ => none
  else do
    let flag ← Flag.all.find? fun flag => flag.name == name
    let setting ← Setting.ofToml? content
    return { file with settings := file.settings ++ [(flag, setting)] }

/-- The policy file that a TOML text holds. -/
def read? (source : String) : Option PolicyFile :=
  match Toml.read? source with
  | some (.table entries) => entries.foldlM (fun file entry => file.add? entry.1 entry.2) empty
  | _ => none

/-- The policy file of a name, whose text is there or not. -/
def load (name : String) (content : Except FileFault String) : Except PolicyFileError PolicyFile :=
  match content with
  | .error fault => .error (.unreadable name fault)
  | .ok source =>
    match read? source with
    | some file => .ok file
    | none => .error (.malformed name)

/-- The setting of a flag. -/
def setting? (file : PolicyFile) (flag : Flag) : Option Setting :=
  (file.settings.find? fun entry => entry.1 = flag).map Prod.snd

/-- Give the flags of a file their settings. -/
def addTo (file : PolicyFile) (draft : Draft) : Draft :=
  Flag.all.foldl
    (fun draft flag =>
      match file.setting? flag with
      | some setting => draft.set flag setting
      | none => draft)
    draft

end PolicyFile

end StructuralDiff
