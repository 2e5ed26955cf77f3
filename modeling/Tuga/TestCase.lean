import Tuga.Markdown.Block
import Tuga.Markdown.Inline
import Tuga.Text.Quoted

namespace Tuga

inductive AssertionKind where
  | output
  | compileError
  | runtimeError
  | types
  | bytecode
  deriving DecidableEq, Repr

namespace AssertionKind

def name : AssertionKind → Text
  | output => "output"
  | compileError => "compile-error"
  | runtimeError => "runtime-error"
  | types => "types"
  | bytecode => "bytecode"

def all : List AssertionKind := [output, compileError, runtimeError, types, bytecode]

def ofName? (name : Text) : Option AssertionKind := all.find? (·.name = name)

end AssertionKind

-- An expectation, with the line of the document where its text starts.
structure Assertion where
  kind : AssertionKind
  content : Text
  line : Nat
  deriving DecidableEq, Repr

-- The lines of an expectation. An empty one has none.
def Assertion.lines (a : Assertion) : List Text :=
  if a.content.isEmpty then [] else a.content.splitOn 10

-- A program and what is expected of it. An empty source stands for no source.
structure TestCase where
  name : Text
  line : Nat
  source : Text := []
  assertions : List Assertion := []
  deriving DecidableEq, Repr

inductive Part where
  | heading (title : Text) (line : Nat)
  | fence (language body : Text) (line : Nat)
  deriving DecidableEq, Repr

inductive CaseError where
  | outside (line : Nat) (language : Text)
  | secondSource (line : Nat) (name : Text)
  | unknownLanguage (line : Nat) (language name : Text)
  | noSource (name : Text)
  | noAssertion (name : Text)
  | contradiction (name : Text)
  deriving DecidableEq, Repr

namespace TestCase

def sourceLanguage : Text := "tuga"

def titleStart : Text := "Test: "

end TestCase

def CaseError.message (e : CaseError) : Text :=
  let line (n : Nat) : Text := ("line " : Text) ++ Text.ofNat n ++ (": " : Text)
  let test (name : Text) : Text := ("test " : Text) ++ Text.quote name
  ("mdcase: " : Text) ++
    match e with
    | outside n language => line n ++ language ++ (" fence outside of a test case" : Text)
    | secondSource n name =>
      line n ++ ("multiple " : Text) ++ TestCase.sourceLanguage ++ (" fences in " : Text) ++
        test name
    | unknownLanguage n language name =>
      line n ++ ("unknown fence language " : Text) ++ Text.quote language ++ (" in " : Text) ++
        test name
    | noSource name =>
      test name ++ (" has no " : Text) ++ TestCase.sourceLanguage ++ (" fence" : Text)
    | noAssertion name => test name ++ (" has no assertion fences" : Text)
    | contradiction name => test name ++ (" expects a compile error and execution results" : Text)

def Text.strip (text : Text) : Text :=
  let blank (c : Character) : Bool := Text.isBlank c.code
  Text.ofCharacters ((text.characters.dropWhile blank).reverse.dropWhile blank).reverse

namespace TestCase

def assertion? (c : TestCase) (kind : AssertionKind) : Option Assertion :=
  c.assertions.find? (·.kind = kind)

-- Accepts a case that has a program and expectations, unless it expects both that the program
-- does not compile and what happens when it runs.
def validate (c : TestCase) : Except CaseError TestCase :=
  let expects (kind : AssertionKind) : Bool := (c.assertion? kind).isSome
  if c.source.isEmpty then .error (.noSource c.name)
  else if c.assertions.isEmpty then .error (.noAssertion c.name)
  else if expects .compileError && (expects .output || expects .runtimeError) then
    .error (.contradiction c.name)
  else .ok c

def addFence (c : TestCase) (language body : Text) (line : Nat) : Except CaseError TestCase :=
  if language = sourceLanguage then
    if c.source.isEmpty then .ok { c with source := body }
    else .error (.secondSource line c.name)
  else
    match AssertionKind.ofName? language with
    | some kind => .ok { c with assertions := c.assertions ++ [⟨kind, body, line⟩] }
    | none => .error (.unknownLanguage line language c.name)

def nameOf? (title : Text) : Option Text :=
  if titleStart.isPrefixOf title then some (Text.strip (title.drop titleStart.length))
  else none

-- The cases of a list of parts, after the case that is being read. Fences without a language do
-- not count.
def ofParts (current : Option TestCase) : List Part → Except CaseError (List TestCase)
  | [] =>
    match current with
    | none => .ok []
    | some c => return [← c.validate]
  | .heading title line :: rest =>
    match nameOf? title with
    | none => ofParts current rest
    | some name =>
      match current with
      | none => ofParts (some { name, line }) rest
      | some c => do
        let c ← c.validate
        return c :: (← ofParts (some { name, line }) rest)
  | .fence language body line :: rest =>
    if language.isEmpty then ofParts current rest
    else
      match current with
      | none => .error (.outside line language)
      | some c => do
        let c ← c.addFence language body line
        ofParts (some c) rest

end TestCase

def Text.dropLineEnd (text : Text) : Text :=
  if text.getLast? = some 10 then text.dropLast else text

-- A block of a document as a part. The body of a fence ends before its last line break, and
-- blocks without text count as standing on the first line.
def Part.ofBlock (labels : List Text) : Markdown.Block → Part
  | .heading lines =>
    .heading (Markdown.headingText labels lines) ((lines.head?.map (·.number)).getD 1)
  | .fence language lines =>
    .fence language (Text.dropLineEnd (lines.flatMap (·.2))) ((lines.head?.map (·.1)).getD 1)

def TestCase.ofDocument (document : Markdown.Document) : Except CaseError (List TestCase) :=
  TestCase.ofParts none (document.blocks.map (Part.ofBlock document.labels))

-- The test cases of a Markdown document. A heading "Test: name" starts a case; the fences up to the
-- next such heading hold its program and what is expected of it.
def TestCase.ofMarkdown (text : Text) : Except CaseError (List TestCase) :=
  TestCase.ofDocument (Markdown.Document.ofText text)

end Tuga
