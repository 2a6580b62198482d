import Letterhead.Text.Named

/-!
The tables in which a store is kept, told twice: as they are now, and as a series of changes that
makes them from nothing. A change that takes for granted what is not there cannot be made.
-/

namespace Letterhead.Schema

inductive ColumnType where
  | text
  | whole
  | json
  | instant
deriving DecidableEq, Repr

def ColumnType.word : ColumnType → String
  | text => "VARCHAR"
  | whole => "INTEGER"
  | json => "JSON"
  | instant => "DATETIME"

structure Column where
  name : String
  type : ColumnType
  nullable : Bool := false
deriving DecidableEq, Repr

structure ForeignKey where
  columns : List String
  table : String
  onDelete : String
deriving DecidableEq, Repr

structure Table where
  columns : List Column
  primaryKey : List String
  foreignKeys : List ForeignKey := []
  indexes : List (String × List String) := []
deriving DecidableEq, Repr

end Schema

abbrev Schema := List (String × Schema.Table)

namespace Schema

inductive Change where
  | createTable (name : String) (t : Table)
  | dropTable (name : String)
  | createIndex (name table : String) (columns : List String)
  | dropIndex (name table : String)
deriving DecidableEq, Repr

def Table.hasIndex (t : Table) (name : String) : Bool := t.indexes.any fun i => i.1 == name

def replace (s : Schema) (name : String) (t : Table) : Schema :=
  s.map fun e => if e.1 == name then (name, t) else e

def Change.make? (s : Schema) : Change → Option Schema
  | createTable name t => if (s.lookup name).isSome then none else some (s ++ [(name, t)])
  | dropTable name =>
    if (s.lookup name).isSome then some (s.filter fun e => e.1 != name) else none
  | createIndex name table columns =>
    match s.lookup table with
    | some t =>
      if t.hasIndex name then none
      else some (replace s table { t with indexes := t.indexes ++ [(name, columns)] })
    | none => none
  | dropIndex name table =>
    match s.lookup table with
    | some t =>
      if t.hasIndex name then
        some (replace s table { t with indexes := t.indexes.filter fun i => i.1 != name })
      else none
    | none => none

def makeAll? (s : Schema) (cs : List Change) : Option Schema := cs.foldlM Change.make? s

def threads : Table where
  columns := [⟨"id", .text, false⟩, ⟨"title", .text, true⟩, ⟨"created_at", .instant, true⟩,
    ⟨"updated_at", .instant, true⟩]
  primaryKey := ["id"]

def outputs : Table where
  columns := [⟨"id", .whole, false⟩, ⟨"thread_id", .text, false⟩, ⟨"message_id", .text, true⟩,
    ⟨"filename", .text, false⟩, ⟨"filepath", .text, false⟩, ⟨"file_type", .text, false⟩,
    ⟨"file_size", .whole, false⟩, ⟨"generation_config", .json, true⟩,
    ⟨"expires_at", .instant, true⟩, ⟨"download_count", .whole, false⟩,
    ⟨"created_at", .instant, true⟩]
  primaryKey := ["id"]
  foreignKeys := [⟨["thread_id"], "threads", "CASCADE"⟩]

def byThread : String × List String := ("ix_thread_outputs_thread_id", ["thread_id"])

def byExpiry : String × List String := ("ix_thread_outputs_expires_at", ["expires_at"])

def current : Schema :=
  [("threads", threads), ("thread_outputs", { outputs with indexes := [byThread, byExpiry] })]

def upgrade : List Change :=
  [.createTable "threads" threads, .createTable "thread_outputs" outputs,
    .createIndex byThread.1 "thread_outputs" byThread.2,
    .createIndex byExpiry.1 "thread_outputs" byExpiry.2]

def downgrade : List Change :=
  [.dropIndex byExpiry.1 "thread_outputs", .dropIndex byThread.1 "thread_outputs",
    .dropTable "thread_outputs", .dropTable "threads"]

end Schema
end Letterhead
