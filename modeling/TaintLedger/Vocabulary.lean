import TaintLedger.Code.Signature

/-! # Vocabularies

The call signatures that the analyses treat specially. Signatures are compared as they stand.
-/

namespace TaintLedger

structure Vocabulary where
  /-- Calls that read a field of a row fetched by an accessor. -/
  readers : List String := []
  /-- Calls that take a handle as their first argument. -/
  accessors : List String := []
  /-- Calls that build a handle from a token. -/
  constructors : List String := []
  /-- Calls that build a text or a handle from parts. -/
  builders : List String := []
  /-- Sinks whose intent is described, without their owner. -/
  launches : List String := []
  /-- Sources that are not reported alone. -/
  suppressed : List String := []
  /-- The type of handles. -/
  handleType : String := ""
deriving DecidableEq, Repr

/-- The roles that a signature may have. -/
inductive CallRole where
  | reader
  | accessor
  | constructor
  | builder
  | launch
  | suppressed
deriving DecidableEq, Repr

namespace CallRole

def all : List CallRole := [.reader, .accessor, .constructor, .builder, .launch, .suppressed]

def name : CallRole → String
  | .reader => "reader"
  | .accessor => "accessor"
  | .constructor => "constructor"
  | .builder => "builder"
  | .launch => "launch"
  | .suppressed => "suppressed"

end CallRole

def intentType : String := "android.content.Intent"

namespace Vocabulary

def isReader (v : Vocabulary) (s : String) : Bool := v.readers.contains s

def isAccessor (v : Vocabulary) (s : String) : Bool := v.accessors.contains s

def isConstructor (v : Vocabulary) (s : String) : Bool := v.constructors.contains s

def isBuilder (v : Vocabulary) (s : String) : Bool := v.builders.contains s

/-- Launches are known by their signature without the owner. -/
def isLaunch (v : Vocabulary) (s : String) : Bool := v.launches.contains (Signature.member s)

def isSuppressed (v : Vocabulary) (s : String) : Bool := v.suppressed.contains s

def hasRole (v : Vocabulary) (s : String) : CallRole → Bool
  | .reader => v.isReader s
  | .accessor => v.isAccessor s
  | .constructor => v.isConstructor s
  | .builder => v.isBuilder s
  | .launch => v.isLaunch s
  | .suppressed => v.isSuppressed s

def roles (v : Vocabulary) (s : String) : List CallRole := CallRole.all.filter (v.hasRole s)

def query : String := "<android.content.ContentResolver: android.database.Cursor query(android.net.Uri,java.lang.String[],java.lang.String,java.lang.String[],java.lang.String)>"

/-- The vocabulary of Android content providers. -/
def android : Vocabulary where
  readers := [
    "<android.database.Cursor: byte[] getBlob(int)>",
    "<android.database.Cursor: java.lang.String getColumnName(int)>",
    "<android.database.Cursor: java.lang.String[] getColumnNames()>",
    "<android.database.Cursor: int getInt(int)>",
    "<android.database.Cursor: long getLong(int)>",
    "<android.database.Cursor: java.lang.String getString(int)>",
    "<android.database.Cursor: int getType(int)>"]
  accessors := [
    query,
    "<android.content.ContentResolver: android.net.Uri insert(android.net.Uri,android.content.ContentValues)>",
    "<android.content.ContentResolver: int bulkInsert(android.net.Uri,android.content.ContentValues[])>",
    "<android.content.ContentResolver: int update(android.net.Uri,android.content.ContentValues,java.lang.String,java.lang.String[])>",
    "<android.content.ContentResolver: int delete(android.net.Uri,java.lang.String,java.lang.String[])>"]
  constructors := ["<android.net.Uri: android.net.Uri parse(java.lang.String)>"]
  builders := [
    "<java.lang.StringBuilder: java.lang.String toString()>",
    "<java.lang.String: java.lang.String concat(java.lang.String)>",
    "<android.net.Uri: android.net.Uri withAppendedPath(android.net.Uri,java.lang.String)>"]
  launches := [
    "void startActivity(android.content.Intent)",
    "void startActivity(android.content.Intent,android.os.Bundle)",
    "void startActivityForResult(android.content.Intent,int)",
    "void startActivityForResult(android.content.Intent,int,android.os.Bundle)"]
  suppressed := [query]
  handleType := "android.net.Uri"

/-- `v`, with what it leaves empty taken from `d`. -/
def orElse (v d : Vocabulary) : Vocabulary where
  readers := if v.readers.isEmpty then d.readers else v.readers
  accessors := if v.accessors.isEmpty then d.accessors else v.accessors
  constructors := if v.constructors.isEmpty then d.constructors else v.constructors
  builders := if v.builders.isEmpty then d.builders else v.builders
  launches := if v.launches.isEmpty then d.launches else v.launches
  suppressed := if v.suppressed.isEmpty then d.suppressed else v.suppressed
  handleType := if v.handleType.isEmpty then d.handleType else v.handleType

end Vocabulary

end TaintLedger
