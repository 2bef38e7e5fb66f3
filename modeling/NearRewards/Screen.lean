import NearRewards.Library.Casing
import NearRewards.Library.Pattern
import NearRewards.Values

/-! The screen a generated SQL statement has to pass before it goes to a database. It looks at
the text alone: comments are cut out, and what is left must be one statement that reads and
has no word in it that writes. -/

namespace NearRewards.Agent

/-- What the screen has from Python outside ASCII: how a character is lower-cased, whether it
is alphanumeric, and how a text is quoted. -/
structure Script where
  casing : Casing.Table
  alnum : Char → Bool
  quoted : List Char → String

namespace Screen

/-- `re` with `IGNORECASE`: these four characters match letters as well. -/
def same (letter c : Char) : Bool :=
  c.toLower = letter ∨ letter = 'i' ∧ c ∈ ['\u0130', '\u0131'] ∨ letter = 's' ∧ c = '\u017f' ∨ letter = 'k' ∧ c = '\u212a'

def alphabet (script : Script) : Alphabet where
  same := same
  word c := c.isAlphanum ∨ c = '_' ∨ ¬Casing.Ascii c ∧ script.alnum c
  space := isSpace

/-- `_WRITE_TOKENS`. -/
def writeTokens : List String :=
  ["insert", "update", "delete", "merge", "drop", "create", "alter", "truncate", "grant", "revoke", "replace", "call", "execute",
    "exec", "begin", "commit", "rollback", "set", "vacuum", "analyze", "copy", "load", "attach", "pragma", "into"]

/-- `_UNSAFE_CONSTRUCTS`. -/
def unsafeConstructs : List (String × Pattern) :=
  let words (list : List String) : Pattern := .words (list.map String.toList)
  let text (word : String) : Piece := .text word.toList
  [("file export", words ["outfile", "dumpfile"]),
    ("session/admin function", words ["pg_terminate_backend", "pg_cancel_backend", "pg_reload_conf", "pg_rotate_logfile",
      "pg_switch_wal", "pg_create_restore_point", "pg_advisory_lock", "pg_advisory_xact_lock", "sp_executesql", "xp_cmdshell",
      "xp_dirtree", "kill_query", "sys_exec", "sys_eval"]),
    ("filesystem function", words ["pg_read_file", "pg_read_binary_file", "pg_ls_dir", "pg_stat_file", "lo_import", "lo_export",
      "load_file", "readfile", "writefile", "file_get_contents"]),
    ("remote/federated fetch", words ["dblink", "dblink_exec", "postgres_fdw", "external_query", "openrowset", "opendatasource",
      "http_get", "http_post", "urlread", "url_fetch", "net.http_get"]),
    ("time-consuming sleep", ⟨["pg_sleep", "pg_sleep_for", "sleep", "benchmark", "waitfor"].map fun word =>
      [text word, .spaces 0, text "("], false⟩),
    ("row lock", ⟨[[text "for", .spaces 1, text "update"], [text "for", .spaces 1, text "share"],
      [text "for", .spaces 1, text "no", .spaces 1, text "key", .spaces 1, text "update"],
      [text "for", .spaces 1, text "key", .spaces 1, text "share"]], true⟩)]

/-- Some `*/` is still to come. -/
def closes : List Char → Bool
  | '*' :: '/' :: _ => true
  | _ :: rest => closes rest
  | [] => false

/-- `_BLOCK_COMMENT.sub(" ", sql)`; `inside` a comment everything up to its end is left out. -/
def stripBlocks (inside : Bool) : List Char → List Char
  | [] => []
  | '*' :: '/' :: rest => if inside then stripBlocks false rest else '*' :: stripBlocks false ('/' :: rest)
  | '/' :: '*' :: rest =>
    if inside then stripBlocks true ('*' :: rest)
    else if closes rest then ' ' :: stripBlocks true rest else '/' :: stripBlocks false ('*' :: rest)
  | c :: rest => if inside then stripBlocks true rest else c :: stripBlocks false rest

/-- `_LINE_COMMENT.sub(" ", sql)`; the end of the line stays. -/
def stripLines (inside : Bool) : List Char → List Char
  | [] => []
  | '-' :: '-' :: rest => if inside then stripLines true ('-' :: rest) else ' ' :: stripLines true rest
  | '#' :: rest => if inside then stripLines true rest else ' ' :: stripLines true rest
  | '\n' :: rest => '\n' :: stripLines false rest
  | c :: rest => if inside then stripLines true rest else c :: stripLines false rest

/-- `_strip_comments`. -/
def stripComments (sql : List Char) : List Char := stripLines false (stripBlocks false sql)

/-- What the screen takes for the statement. -/
def cleaned (sql : List Char) : List Char := stripped ((stripped (stripComments sql)).rdropWhile (· = ';'))

/-- `low`. -/
def opening (script : Script) (cleaned : List Char) : List Char :=
  Casing.lower script.casing ((cleaned.dropWhile (· = '(')).dropWhile isSpace)

/-- `assert_read_only`: what is wrong with the statement, if anything is. -/
def assertReadOnly (script : Script) (sql : String) (cap : ℤ) : Option String :=
  let size := sql.utf8ByteSize
  let cleaned := cleaned sql.toList
  let low := opening script cleaned
  if stripped sql.toList = [] then some "empty query"
  else if size > cap then
    some ("query too large: " ++ toString size ++ " bytes exceeds the " ++ toString cap ++ "-byte cap")
  else if "/*!".toList <:+: sql.toList then some "MySQL versioned comment (/*! ... */) is executable and not allowed"
  else if cleaned = [] then some "query contains no statement outside comments"
  else if ';' ∈ cleaned then some "multiple statements are not allowed (single SELECT/WITH only)"
  else if ¬("select".toList <+: low ∨ "with".toList <+: low) then some "only SELECT/WITH queries are allowed"
  else
    match (Pattern.words (writeTokens.map String.toList)).search (alphabet script) cleaned with
    | some hit => some ("write/DDL keyword not allowed: " ++ script.quoted hit)
    | none => unsafeConstructs.findSome? fun (label, pattern) =>
      (pattern.search (alphabet script) cleaned).map fun found => label ++ " not allowed: " ++ script.quoted (stripped found)

end Screen
end NearRewards.Agent
