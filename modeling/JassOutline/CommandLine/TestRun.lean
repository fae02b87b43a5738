import JassOutline.CommandLine.Console
import JassOutline.CommandLine.Disk
import JassOutline.CommandLine.Expectation

/-!
# Running test files

The test files below a directory are those whose names end in `.test.j`. The directories between
them and the one that was asked for make up their category. Categories run in the order of their
names, and the files of one in the order of theirs.
-/

namespace JassOutline.CommandLine

open Text

/-- The part of the program that runs tests. -/
def testOrigin : String := "vjass::test_runner"

/-- What the name of a test file ends with. -/
def testSuffix : List Char := ".test.j".toList

/-- The text before the given ending, if the text ends with it. -/
def dropTrailing? (ending text : List Char) : Option (List Char) :=
  (dropLeading? ending.reverse text.reverse).map List.reverse

/-- Whether a file of the name is a test file. -/
def isTestName (name : String) : Bool :=
  (dropTrailing? testSuffix name.toList).isSome

/-- A test file. -/
structure TestFile where
  /-- The names of the directories it lies in, from the one that was asked for. -/
  category : String
  name : String
  path : String
  content : FileTree

/-- The last part of a path. -/
def lastPart (path : String) : String :=
  (path.splitOn "/").getLastD path

/-- A name below a path. -/
def joinPath (path name : String) : String :=
  if path.toList.getLast? = some '/' then path ++ name else path ++ "/" ++ name

/-- A name below a category. -/
def joinCategory (category name : String) : String :=
  if category.isEmpty then name else category ++ "/" ++ name

mutual

/-- The test files of a tree that stands at the given path. -/
def FileTree.testFiles (path category : String) : FileTree → List TestFile
  | .file _ => []
  | .directory entries => entryTestFiles path category entries

/-- The test files among the entries of a directory. -/
def FileTree.entryTestFiles (path category : String) : List (String × FileTree) → List TestFile
  | [] => []
  | (name, .file bytes) :: rest =>
    let others := entryTestFiles path category rest
    if isTestName name then
      ⟨category, name, joinPath path name, .file bytes⟩ :: others
    else others
  | (name, tree) :: rest =>
    tree.testFiles (joinPath path name) (joinCategory category name)
      ++ entryTestFiles path category rest

end

/-- Test files with the name of the category they belong to. -/
structure Category where
  name : String
  files : List TestFile

namespace Category

/-- Adds a file to the category of its own, which comes last if it is new. -/
def add (file : TestFile) : List Category → List Category
  | [] => [⟨file.category, [file]⟩]
  | c :: rest =>
    if c.name = file.category then { c with files := c.files ++ [file] } :: rest
    else c :: add file rest

/-- The test files in categories, all in the order of their names. -/
def ofFiles (files : List TestFile) : List Category :=
  let sorted := files.mergeSort fun a b => a.name ≤ b.name
  (sorted.foldl (fun categories file => add file categories) []).mergeSort fun a b =>
    a.name ≤ b.name

/-- The categories of the test files at a path. -/
def ofPath (disk : Disk) (path : String) : List Category :=
  match disk.find path with
  | .ok tree => ofFiles (tree.testFiles path "")
  | .error _ => []

/-- The name of the category for a reader. -/
def title (name : String) : String :=
  if name.isEmpty then "(root)" else name

/-- Whether a category is the wanted one or lies below it. -/
def liesIn (name wanted : List Char) : Bool :=
  match dropLeading? wanted name with
  | some rest => rest.isEmpty || rest.head? == some '/'
  | none => false

/-- A wanted category without slashes around its name. -/
def trimSlashes (wanted : String) : List Char :=
  dropEndWhile (· == '/') (wanted.toList.dropWhile (· == '/'))

/-- The categories that are wanted, or all of them if none are named. -/
def select (wanted : List String) (categories : List Category) : List Category :=
  if wanted.isEmpty then categories
  else
    categories.filter fun c =>
      wanted.any fun name => liesIn c.name.toList (trimSlashes name)

/-- What is logged about wanted categories that there are none of. -/
def missingLog (wanted : List String) (categories : List Category) : List LogEntry :=
  let missing := (wanted.map trimSlashes).filter fun name =>
    !categories.any fun c => liesIn c.name.toList name
  missing.map fun name =>
    ⟨.warning, testOrigin, "no tests in category", [("category", String.ofList name)]⟩

end Category

/-! ### Results -/

/-- What a test file led to. -/
structure TestResult where
  path : String
  /-- What the test is called. -/
  label : String
  failure : Option Expectation.Failure
  /-- What was logged while the test ran. -/
  log : List LogEntry

namespace TestResult

/-- What a test without a description is called: the name of its file. -/
def nameLabel (path : String) : String :=
  match dropTrailing? testSuffix (lastPart path).toList with
  | some name => String.ofList name
  | none => "?"

/-- The failure, if there is one. -/
def failureOf : Except Expectation.Failure Unit → Option Expectation.Failure
  | .ok _ => none
  | .error failure => some failure

/-- Runs the test in a file. -/
def ofFile (settings : Settings) (file : TestFile) : TestResult :=
  match file.content.text with
  | .error e => ⟨file.path, nameLabel file.path, some (.unreadable e.message), []⟩
  | .ok content =>
    let text := content.toList.dropWhile (· == '\uFEFF')
    match Expectation.ofText text with
    | .error failure => ⟨file.path, nameLabel file.path, some failure, []⟩
    | .ok expectation =>
      ⟨file.path, expectation.description.getD (nameLabel file.path),
        failureOf (expectation.check settings text),
        analysisLog settings text (.read 0 settings.expansionLimit text)⟩

/-- What is written while the test runs: its log and a line with its verdict. -/
def notices (result : TestResult) : List Notice :=
  let verdict :=
    if result.failure.isSome then .bold (some .red) "FAIL" else .bold (some .green) "PASS"
  result.log.map .log ++ [.text "  ", verdict, .text s!"  {result.label}\n"]

/-- The lines that tell why a test failed. -/
def details (result : TestResult) : String :=
  match result.failure with
  | none => ""
  | some failure =>
    let reasons := (splitLines failure.message.toList).map fun reason =>
      s!"  {String.ofList reason}\n"
    s!"\n  --- {result.path} ---\n" ++ String.join reasons

end TestResult

/-- The tests of one category, run. -/
structure CategoryResult where
  name : String
  results : List TestResult

namespace CategoryResult

/-- Runs the tests of a category. -/
def ofCategory (settings : Settings) (c : Category) : CategoryResult :=
  ⟨c.name, c.files.map (TestResult.ofFile settings)⟩

/-- What is written while the tests of a category run, below its name. -/
def notices (c : CategoryResult) : List Notice :=
  (if c.name.isEmpty then [] else [.text "\n", .bold none c.name, .text "\n"])
    ++ c.results.flatMap TestResult.notices

end CategoryResult

/-- What is written while all tests run, and the number of those that failed. -/
def testReport (categories : List CategoryResult) : List Notice × Nat :=
  let results := categories.flatMap CategoryResult.results
  let failed := (results.filter fun result => result.failure.isSome).length
  let verdict := if failed = 0 then .bold (some .green) "ok" else .bold (some .red) "FAILED"
  (categories.flatMap CategoryResult.notices
    ++ results.map (.text ∘ TestResult.details)
    ++ [.text "\ntest result: ", verdict,
      .text s!". {results.length - failed} passed, {failed} failed\n"], failed)

end JassOutline.CommandLine
