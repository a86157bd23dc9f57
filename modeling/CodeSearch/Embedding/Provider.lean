import CodeSearch.Digest.SipHash
import CodeSearch.Store.Basic
import CodeSearch.Text.Lines
import CodeSearch.Text.LowerCase
import CodeSearch.Text.Utf8

/-!
Embedding providers. A provider answers one request, a list of texts, at a time. The hash provider
makes unit vectors out of hashes; the keyword provider counts words.
-/

set_option autoImplicit false

namespace CodeSearch

inductive EmbedError where
  | requestFailed (reason : String)
  | invalidResponse (reason : String)
  | countMismatch (expected actual : Nat)
  | worker (reason : String)
deriving DecidableEq, Repr

def EmbedError.message : EmbedError → String
  | requestFailed reason => "embedding request failed: " ++ reason
  | invalidResponse reason => "invalid embedding response: " ++ reason
  | countMismatch expected actual =>
    "embedding count mismatch: expected " ++ toString expected ++ ", got " ++ toString actual
  | worker reason => "embedding worker failed: " ++ reason

inductive Reply where
  | vectors (vs : List Vec)
  | failed (e : EmbedError)
  /-- The worker died before it answered. -/
  | crashed

structure Provider where
  dimensions : Nat
  answer : List String → Reply

/-- What a text says to the model about a chunk. -/
def embeddingText (filePath kind content : String) : String :=
  "File: " ++ filePath ++ "\nNode Type: " ++ kind ++ "\nCode:\n" ++ content

namespace Provider

/-- A mixing of 64 bits in which each bit of the state reaches all of the result. -/
def mix (state : UInt64) : UInt64 :=
  let z := state + 0x9E3779B97F4A7C15
  let z := (z ^^^ (z >>> 30)) * 0xBF58476D1CE4E5B9
  let z := (z ^^^ (z >>> 27)) * 0x94D049BB133111EB
  z ^^^ (z >>> 31)

/-- The upper 24 bits as a number from -1 up to 1. -/
def unitInterval (bits : UInt64) : Float32 :=
  (bits >>> 40).toFloat32 / 8388608 - 1

def squareSum (v : Vec) : Float32 := v.foldl (fun sum x => sum + x * x) 0

/-- One component for each dimension, from the hash of the text, scaled to length one. -/
def hashVector (dimensions : Nat) (text : String) : Vec :=
  let seed := Digest.SipHash.hash 0 0 (Text.utf8 text.toList ++ [0xff])
  let raw := (List.range dimensions).map fun i =>
    unitInterval (mix (seed ^^^ (UInt64.ofNat i * 0x2545F4914F6CDD1D)))
  let sum := squareSum raw
  if 0 < sum then
    let scale := 1 / sum.sqrt
    raw.map fun x => x * scale
  else raw

/-- Same text, same vector; other texts are far from it. -/
def hashing (dimensions : Nat) : Provider where
  dimensions
  answer texts := .vectors (texts.map (hashVector dimensions))

/-- Occurrences of a word that do not overlap; the empty word stands at every place. -/
def occurrences (word text : List Char) : Nat := (Text.splitOn word text).length - 1

/-- One component for each word, its count, scaled to length one; `fallback` if no word occurs. -/
def keywordVector (vocabulary : List String) (fallback : Vec) (text : String) : Vec :=
  let lower := Text.lowerCase text.toList
  let counts := vocabulary.map fun word => (UInt64.ofNat (occurrences word.toList lower)).toFloat32
  let length := (squareSum counts).sqrt
  if length == 0 then fallback else counts.map fun x => x / length

def keyword (vocabulary : List String) (fallback : Vec) : Provider where
  dimensions := vocabulary.length
  answer texts := .vectors (texts.map (keywordVector vocabulary fallback))

/-- Texts that make a request go wrong: each field is a part that no text may contain. -/
structure Faults where
  crashIf : Option String := none
  failIf : Option String := none
  dropLastIf : Option String := none

/-- Whether some text of a request has the part. -/
def meets (part : Option String) (texts : List String) : Bool :=
  match part with
  | none => false
  | some word => texts.any fun text => Text.occursIn word.toList text.toList

/-- A provider whose requests go wrong on certain texts. -/
def withFaults (p : Provider) (f : Faults) : Provider where
  dimensions := p.dimensions
  answer texts :=
    if meets f.crashIf texts then .crashed
    else if meets f.failIf texts then .failed (.requestFailed "offline")
    else match p.answer texts with
      | .vectors vs => .vectors (if meets f.dropLastIf texts then vs.dropLast else vs)
      | other => other

end Provider

end CodeSearch
