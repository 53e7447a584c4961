namespace ElasticNet.Log

def replacement : Char := '\ufffd'

def leading (byte : UInt8) : Option (Nat × Nat) :=
  let b := byte.toNat
  if b < 0x80 then some (0, b)
  else if 0xc2 ≤ b && b < 0xe0 then some (1, b - 0xc0)
  else if 0xe0 ≤ b && b < 0xf0 then some (2, b - 0xe0)
  else if 0xf0 ≤ b && b < 0xf5 then some (3, b - 0xf0)
  else none

def isFollowing (byte : UInt8) : Bool :=
  0x80 ≤ byte.toNat && byte.toNat < 0xc0

/-- The text of some bytes, given the character that is under way: how many bytes it still needs and
    what it has so far. -/
def decodeFrom (pending : Option (Nat × Nat)) : List UInt8 → List Char
  | [] => if pending.isSome then [replacement] else []
  | byte :: rest =>
    let start (before : List Char) :=
      match leading byte with
      | none => before ++ replacement :: decodeFrom none rest
      | some (0, code) => before ++ Char.ofNat code :: decodeFrom none rest
      | some (more, code) => before ++ decodeFrom (some (more, code)) rest
    match pending with
    | none => start []
    | some (more, code) =>
      if isFollowing byte then
        let code := code * 64 + (byte.toNat - 0x80)
        if more ≤ 1 then Char.ofNat code :: decodeFrom none rest
        else decodeFrom (some (more - 1, code)) rest
      else start [replacement]

def decode (bytes : List UInt8) : String :=
  String.ofList (decodeFrom none bytes)

def encode (text : String) : List UInt8 :=
  text.toUTF8.toList

end ElasticNet.Log
