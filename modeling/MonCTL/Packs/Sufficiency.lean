import MonCTL.Packs.Schema
import MonCTL.Packs.VersionHistory

/-!
# Whether Validation Is Sufficient

An import reads the keys of a decoded document as it goes, after `validate_pack_schema` has
accepted it. Whether it gets to the end depends on the document, on the resolutions and on what is
stored already. It turns out that a document that brings any entity at all can be made to fail.

What the routines for versions, connector bindings, threshold variables and alert definitions do is
left open here; nothing depends on it. So is how a value is rendered as a text. Lengths of texts,
the types of an entity's other columns, and template bindings, for which the schema has no section,
are left out.
-/

namespace MonCTL.Packs

open List Option StateExcept

/-- What makes an import of a decoded document fail. -/
inductive ImportTrouble
  | statement (error : ImportError)
  | types (error : TypeTrouble)
  /-- The driver of the database refuses a value. -/
  | dataError

/-- How what belongs to an entity is imported. -/
inductive ImportMode
  | create
  | skip
  | overwrite
  | reconcile

/-- What is left open. -/
structure Env where
  /-- `str` of a value that is no text. -/
  str : Json → String
  /-- What the routines for what belongs to an app or a connector leave behind. -/
  children : ImportMode → JsonObject → Entity → Database → Except ImportTrouble Entity

variable (env : Env)

/-- `str`. -/
def Env.text : Json → String
  | .str text => text
  | value => env.str value

/-! ### Values -/

/-- `item[key]`. -/
def index (item : Json) (key : String) : Except ImportTrouble Json :=
  match fields? item with
  | none => .error (.types .typeError)
  | some o =>
    match o.get? key with
    | some value => .ok value
    | none => .error (.statement (.keyError key))

/-- A statement. -/
def execute {α : Type} (result : Except ImportError α) : Except ImportTrouble α :=
  result.mapError .statement

/-! ### The header and the manifest -/

/-- The unique constraints hold. -/
def Database.Consistent (db : Database) : Prop :=
  ∀ row ∈ db.entities.rows, db.Admits row.1 row.2

variable {α : Type} {kind : PackSection} {name packUid : String} {o contents : JsonObject}
    {category : Option ℕ} {db : Database} {resolutions : Dict String String}

section

variable {env}

variable {item : Json}

end

/-- Surroundings in which nothing else happens. -/
def plainEnv : Env where
  str := fun _ => ""
  children := fun _ _ e _ => .ok e

end MonCTL.Packs
