/-
The tokenizer (`tokenizer_bpe.rs`): byte-pair merges over a vocabulary, with
special pieces that are split out of the text first. A file comes as it is
parsed; the chat template, which is rendered elsewhere, is left out. A text is
its characters, and a position in it counts characters.
-/
import Dyninfer.Core.Error
import Dyninfer.Core.Json
import Dyninfer.Lib.Text
import Dyninfer.Lib.Utf8

namespace Dyninfer

/-! ## The file -/

structure AddedToken where
  id : Nat
  content : String
  special : Bool := false
  deriving DecidableEq, Repr

inductive MergeEntry where
  | str (s : String)
  | pair (v : List String)
  deriving DecidableEq, Repr

/-- The entries of the vocabulary, in the order that its map is gone through. -/
structure TokenizerModel where
  vocab : AssocMap String Nat
  merges : List MergeEntry
  byteFallback : Bool := false
  vocabKeys : (vocab.map (·.1)).Nodup

structure TokenizerFile where
  addedTokens : List AddedToken := []
  model : TokenizerModel
  decoder : Option Json := none

inductive TokenizerKind where
  | sentencePiece
  | byteLevel
  deriving DecidableEq, Repr

def spaceMark : Char := '\u2581'

def gpt2Space : Char := '\u0120'

mutual

def decoderIsByteLevel : Json → Bool
  | .object fields => typeIsByteLevel fields || decodersAreByteLevel fields
  | _ => false

/-- A field `decoders` with one of that type among them. -/
def decodersAreByteLevel : List (String × Json) → Bool
  | [] => false
  | (key, value) :: fields => if key = "decoders" then anyIsByteLevel value else decodersAreByteLevel fields

def anyIsByteLevel : Json → Bool
  | .array decoders => someIsByteLevel decoders
  | _ => false

def someIsByteLevel : List Json → Bool
  | [] => false
  | decoder :: decoders => decoderIsByteLevel decoder || someIsByteLevel decoders

def typeIsByteLevel : List (String × Json) → Bool
  | [] => false
  | (key, value) :: fields => if key = "type" then value.asStr == some "ByteLevel" else typeIsByteLevel fields

end

def detectKind (file : TokenizerFile) : TokenizerKind :=
  let hasGpt2 := file.model.vocab.any fun e => Text.startsWith e.1 "\u0120"
  let hasSp := file.model.vocab.any fun e => Text.startsWith e.1 "\u2581"
  if file.decoder.any decoderIsByteLevel then .byteLevel
  else if hasGpt2 && !hasSp then .byteLevel
  else .sentencePiece

/-! ## The symbols of bytes -/

/-- The bytes that are their own symbols. -/
def plainBytes : List Nat := List.range' 0x21 94 ++ List.range' 0xa1 12 ++ List.range' 0xae 82

/-- The other ones, which get the characters from 256 on. -/
def shiftedBytes : List Nat := (List.range 256).filter fun b => !plainBytes.contains b

/-- `gpt2_bytes_to_unicode`. -/
def gpt2BytesToUnicode : AssocMap UInt8 Char :=
  ((plainBytes ++ shiftedBytes).zip (plainBytes ++ List.range' 256 shiftedBytes.length)).map fun e =>
    (UInt8.ofNat e.1, Char.ofNat e.2)

/-- The table read backwards. -/
def gpt2UnicodeToBytes : AssocMap Char UInt8 := gpt2BytesToUnicode.map fun e => (e.2, e.1)

/-- The symbol of a byte; every byte has one. -/
def byteSymbol (b : UInt8) : Char := (gpt2BytesToUnicode.get b).getD gpt2Space

/-! ## Loading -/

structure BpeTokenizer where
  kind : TokenizerKind
  tokenToId : AssocMap String Nat
  idToToken : List String
  merges : AssocMap (String × String) Nat
  byteFallback : Bool
  bosId : Option Nat
  eosId : Option Nat
  specialIds : List Nat
  specialPieces : List (String × Nat)
  byteDecoder : AssocMap Char UInt8

/-- The two sides of a merge; a pair of fewer strings is passed over. -/
def MergeEntry.sides : MergeEntry → Option (String × String)
  | .str s => some ((Text.splitOnce s ' ').getD (s, ""))
  | .pair (a :: b :: _) => some (a, b)
  | .pair _ => none

/-- Sets the text of an id, where needed in a longer list. -/
def setToken (tokens : List String) (e : String × Nat) : List String :=
  if e.2 ≥ tokens.length then (tokens ++ List.replicate (e.2 + 1 - tokens.length) "").set e.2 e.1
  else tokens.set e.2 e.1

/-- The entries of the vocabulary, then the added tokens. -/
def TokenizerFile.entries (file : TokenizerFile) : List (String × Nat) :=
  file.model.vocab ++ file.addedTokens.map fun token => (token.content, token.id)

/-- The added tokens that are split out of a text. -/
def TokenizerFile.pieces (file : TokenizerFile) : List (String × Nat) :=
  (file.addedTokens.filter fun token => token.special || Text.startsWith token.content "<|").map fun token =>
    (token.content, token.id)

def TokenizerFile.mergeTable (file : TokenizerFile) : AssocMap (String × String) Nat :=
  AssocMap.insertAll [] Prod.fst Prod.snd <| file.model.merges.zipIdx.filterMap fun entry =>
    entry.1.sides.map fun sides => (sides, entry.2 % 2 ^ 32)

/-- `from_bytes`, after the parsing. -/
def BpeTokenizer.fromFile (file : TokenizerFile) : Except DynInferError BpeTokenizer :=
  let added := file.addedTokens
  let idOf (contents : List String) := (added.find? fun token => contents.contains token.content).map (·.id)
  let maxId := (file.entries.map (·.2)).max?.getD 0
  if file.model.vocab.isEmpty then .error (.io "tokenizer vocab is empty" none)
  else .ok
    { kind := detectKind file
      tokenToId := file.model.vocab.insertAll (·.content) (·.id) added
      idToToken := file.entries.foldl setToken (List.replicate (maxId + 1) "")
      merges := file.mergeTable
      byteFallback := file.model.byteFallback
      bosId := idOf ["<s>", "<|begin_of_text|>"]
      eosId := (idOf ["<|im_end|>"]).or
        ((idOf ["</s>", "<|endoftext|>", "<|im_end|>", "<|eot_id|>"]).or (idOf ["<|endoftext|>"]))
      specialIds := (added.filter (·.special)).map (·.id)
      -- longest first, so that a piece wins over its prefixes
      specialPieces := file.pieces.mergeSort fun a b => decide (b.1.utf8ByteSize ≤ a.1.utf8ByteSize)
      byteDecoder := if detectKind file = .byteLevel then gpt2UnicodeToBytes else [] }

def BpeTokenizer.fromBytes (parse : List UInt8 → Except String TokenizerFile) (bytes : List UInt8) :
    Except DynInferError BpeTokenizer :=
  match parse bytes with
  | .error e => .error (.io s!"tokenizer.json parse failed: {e}" none)
  | .ok file => fromFile file

namespace BpeTokenizer

variable (tokenizer : BpeTokenizer)

/-! ## Pieces -/

def normalizeSp (text : List Char) : List Char := spaceMark :: text.map fun ch => if ch = ' ' then spaceMark else ch

def pieceId (piece : String) : Option Nat := tokenizer.tokenToId.get piece

/-- A byte in two upper-case hexadecimal digits. -/
def bytePiece (b : UInt8) : String :=
  String.ofList ("<0x".toList ++ [Nat.digitChar (b.toNat / 16), Nat.digitChar (b.toNat % 16)].map Char.toUpper ++ ['>'])

def initialPiecesSp (normalized : List Char) : List String :=
  normalized.flatMap fun ch =>
    if (tokenizer.pieceId (String.singleton ch)).isSome then [String.singleton ch]
    else if tokenizer.byteFallback then (String.utf8EncodeChar ch).map bytePiece
    else ["<unk>"]

def initialPiecesByteLevel (text : List Char) : List String :=
  (Utf8.encode text).map fun b => String.singleton (byteSymbol b)

/-- The better of a merge found so far and the one at `i`. -/
def bestStep (pieces : List String) (best : Nat × Option Nat) (i : Nat) : Nat × Option Nat :=
  match tokenizer.merges.get (pieces.getD i "", pieces.getD (i + 1) "") with
  | some rank => if rank < best.1 then (rank, some i) else best
  | none => best

/-- The first of the neighbours with the lowest rank, and where they stand. -/
def bestMerge (pieces : List String) : Nat × Option Nat :=
  (List.range (pieces.length - 1)).foldl (tokenizer.bestStep pieces) (2 ^ 32 - 1, none)

/-- At most `n` merges. -/
def mergeLoop : Nat → List String → List String
  | 0, pieces => pieces
  | n + 1, pieces =>
    match (tokenizer.bestMerge pieces).2 with
    | none => pieces
    | some i =>
      let merged := pieces.getD i "" ++ pieces.getD (i + 1) ""
      mergeLoop n (pieces.take i ++ merged :: pieces.drop (i + 2))

/-- `bpe_merge`; each merge leaves a piece less. -/
def bpeMerge (pieces : List String) : List String :=
  if pieces.length ≤ 1 then pieces else tokenizer.mergeLoop pieces.length pieces

/-! ## Encoding -/

def encodeOrdinary (text : List Char) : List Nat :=
  if text.isEmpty then []
  else
    let pieces := match tokenizer.kind with
      | .sentencePiece => tokenizer.bpeMerge (tokenizer.initialPiecesSp (normalizeSp text))
      | .byteLevel => tokenizer.bpeMerge (initialPiecesByteLevel text)
    pieces.map fun p => ((tokenizer.pieceId p).or (tokenizer.pieceId "<unk>")).getD 0

/-- The special piece found so far, or one that comes before it. -/
def specialStep (rest : List Char) (best : Option (Nat × String × Nat)) (e : String × Nat) :
    Option (Nat × String × Nat) :=
  match Text.find e.1.toList rest with
  | some pos => if best.all fun found => decide (pos < found.1) then some (pos, e) else best
  | none => best

/-- The special piece that comes first in a text, the first one listed of those at one position. -/
def specialAt (rest : List Char) (pieces : List (String × Nat)) : Option (Nat × String × Nat) :=
  pieces.foldl (specialStep rest) none

/-- At most `n` special pieces; none when the text is not used up. -/
def encodeLoop : Nat → List Char → Option (List Nat)
  | _, [] => some []
  | 0, _ :: _ => none
  | n + 1, rest@(_ :: _) =>
    match specialAt rest tokenizer.specialPieces with
    | none => some (tokenizer.encodeOrdinary rest)
    | some (pos, piece, id) => do
      let before := if pos > 0 then tokenizer.encodeOrdinary (rest.take pos) else []
      let after ← encodeLoop n (rest.drop (pos + piece.toList.length))
      return before ++ id :: after

/-- `encode`; it does not return when a special piece is empty, and takes a character of the text in each round
otherwise. -/
def encode (text : String) (addSpecialTokens : Bool) : Option (List Nat) := do
  let ids ← tokenizer.encodeLoop text.toList.length text.toList
  return (if addSpecialTokens then tokenizer.bosId.toList else []) ++ ids

/-! ## Decoding -/

def isSpecial (id : Nat) : Bool :=
  some id == tokenizer.bosId || some id == tokenizer.eosId || tokenizer.specialIds.contains id

/-- The text of an id, or none. -/
def tokenText (id : Nat) : String := (tokenizer.idToToken[id]?).getD ""

/-- `u8::from_str_radix`, of hexadecimal digits. -/
def parseHexByte (hex : String) : Option UInt8 :=
  let digits := Text.dropPlus hex.toList
  let digit (ch : Char) : Option Nat :=
    if ch.isDigit then some (ch.toNat - '0'.toNat)
    else if 'a' ≤ ch.toLower ∧ ch.toLower ≤ 'f' then some (ch.toLower.toNat - 'a'.toNat + 10)
    else none
  match digits.mapM digit with
  | some ns =>
    let value := ns.foldl (fun value n => value * 16 + n) 0
    if ns ≠ [] ∧ value < 256 then some (UInt8.ofNat value) else none
  | none => none

/-- The white space that `trim_start` takes off. -/
def isWhiteSpace (ch : Char) : Bool :=
  let n := ch.toNat
  (9 ≤ n && n ≤ 13) || (0x2000 ≤ n && n ≤ 0x200a) ||
    [0x20, 0x85, 0xa0, 0x1680, 0x2028, 0x2029, 0x202f, 0x205f, 0x3000].contains n

/-- `decode_sp`: runs of byte pieces are decoded together. -/
def decodeSp (ids : List Nat) (skipSpecialTokens : Bool) : String :=
  let flush (acc : List UInt8 × List Char) := acc.2 ++ Utf8.lossy acc.1
  let acc := ids.foldl (fun (acc : List UInt8 × List Char) id =>
    let tok := tokenizer.tokenText id
    if skipSpecialTokens && tokenizer.isSpecial id then acc
    else if tok.isEmpty then acc
    else match ((Text.strip tok "<0x").bind (Text.stripEnd · ">")).bind parseHexByte with
      | some b => (acc.1 ++ [b], acc.2)
      | none => ([], flush acc ++ tok.toList)) ([], [])
  let decoded := (flush acc).map fun ch => if ch = spaceMark then ' ' else ch
  String.ofList (decoded.dropWhile isWhiteSpace)

/-- The text that the ids stand for, in symbols. -/
def symbols (ids : List Nat) (skipSpecialTokens : Bool) : List Char :=
  ids.flatMap fun id =>
    let tok := tokenizer.tokenText id
    if skipSpecialTokens && tokenizer.isSpecial id then []
    else if tok.isEmpty then []
    -- literal text, by the source's comment, and yet it goes through the decoder with the rest
    else if Text.startsWith tok "<|" && Text.endsWith tok "|>" then if skipSpecialTokens then [] else tok.toList
    else tok.toList

/-- The bytes of a symbol. -/
def symbolBytes (ch : Char) : List UInt8 :=
  match tokenizer.byteDecoder.get ch with
  | some b => [b]
  | none => if ch = gpt2Space then [0x20] else String.utf8EncodeChar ch

def decodeByteLevel (ids : List Nat) (skipSpecialTokens : Bool) : String :=
  String.ofList (Utf8.lossy ((tokenizer.symbols ids skipSpecialTokens).flatMap tokenizer.symbolBytes))

def decode (ids : List Nat) (skipSpecialTokens : Bool) : String :=
  match tokenizer.kind with
  | .sentencePiece => tokenizer.decodeSp ids skipSpecialTokens
  | .byteLevel => tokenizer.decodeByteLevel ids skipSpecialTokens

end BpeTokenizer

end Dyninfer
