import SymbolDocs.Interchange.Types
import SymbolDocs.Settings
set_option autoImplicit false

/-!
# Settings as JSON values

Every field of the settings may be missing; it then has its default.

## Main definitions

* `Interchange.ofStoreSettings`, `Interchange.ofLogSettings` — the values.
* `Interchange.storeSettings`, `Interchange.logSettings` — the decoders.
-/

namespace SymbolDocs

namespace Interchange

open Json

/-! ### Settings of a store -/

/-- The value of the settings of a store. -/
def ofStoreSettings (settings : StoreSettings) : Json :=
  record [("documentation_extension", .string settings.extension),
    ("member_element", .string settings.memberElement),
    ("strict_owner_sources", .boolean settings.strictOwners)]

/-- The record of the settings of a store. -/
def storeSettingsForm : RecordForm :=
  ⟨"StoreConfig", ["documentation_extension", "member_element", "strict_owner_sources"]⟩

/-- The fields of the settings of a store met so far. -/
structure StoreSettingsDraft where
  /-- The extension. -/
  extension : Option Text := none
  /-- The element name. -/
  memberElement : Option Text := none
  /-- The policy for owners. -/
  strictOwners : Option Bool := none

/-- One more field of the settings of a store. -/
def StoreSettingsDraft.put (origin : Origin) (draft : StoreSettingsDraft) (field : Text × Json) :
    Except DecodeError StoreSettingsDraft :=
  if field.1 = "documentation_extension".toList then do
    let extension ← fill field.1 draft.extension fun _ => text origin field.2
    .ok { draft with extension }
  else if field.1 = "member_element".toList then do
    let memberElement ← fill field.1 draft.memberElement fun _ => text origin field.2
    .ok { draft with memberElement }
  else if field.1 = "strict_owner_sources".toList then do
    let strictOwners ← fill field.1 draft.strictOwners fun _ => flag origin field.2
    .ok { draft with strictOwners }
  else do
    passOver field.2
    .ok draft

/-- The decoder of the settings of a store. -/
def storeSettings : Decoder StoreSettings := fun origin json => do
  let entries ← storeSettingsForm.entries origin json
  let draft ← entries.fields.foldlM (StoreSettingsDraft.put entries.origin) {}
  RecordForm.close storeSettingsForm.fields.length entries.origin entries.surplus
  let default : StoreSettings := {}
  .ok {
    extension := draft.extension.getD default.extension
    memberElement := draft.memberElement.getD default.memberElement
    strictOwners := draft.strictOwners.getD default.strictOwners }

/-! ### Settings of a log -/

/-- The value of the settings of a log. -/
def ofLogSettings (settings : LogSettings) : Json :=
  record [("log_dir", .string settings.directory), ("to_stderr", .boolean settings.toStderr),
    ("default_filter", .string settings.filter)]

/-- The record of the settings of a log. -/
def logSettingsForm : RecordForm :=
  ⟨"LoggingConfig", ["log_dir", "to_stderr", "default_filter"]⟩

/-- The fields of the settings of a log met so far. -/
structure LogSettingsDraft where
  /-- The directory. -/
  directory : Option Text := none
  /-- Whether the log is shown. -/
  toStderr : Option Bool := none
  /-- The filter. -/
  filter : Option Text := none

/-- One more field of the settings of a log. -/
def LogSettingsDraft.put (origin : Origin) (draft : LogSettingsDraft) (field : Text × Json) :
    Except DecodeError LogSettingsDraft :=
  if field.1 = "log_dir".toList then do
    let directory ← fill field.1 draft.directory fun _ => path origin field.2
    .ok { draft with directory }
  else if field.1 = "to_stderr".toList then do
    let toStderr ← fill field.1 draft.toStderr fun _ => flag origin field.2
    .ok { draft with toStderr }
  else if field.1 = "default_filter".toList then do
    let filter ← fill field.1 draft.filter fun _ => text origin field.2
    .ok { draft with filter }
  else do
    passOver field.2
    .ok draft

/-- The decoder of the settings of a log for a home directory. -/
def logSettings (home : Option Text) : Decoder LogSettings := fun origin json => do
  let entries ← logSettingsForm.entries origin json
  let draft ← entries.fields.foldlM (LogSettingsDraft.put entries.origin) {}
  RecordForm.close logSettingsForm.fields.length entries.origin entries.surplus
  let default := LogSettings.default home
  .ok {
    directory := draft.directory.getD default.directory
    toStderr := draft.toStderr.getD default.toStderr
    filter := draft.filter.getD default.filter }

end Interchange

end SymbolDocs
