import Mathlib.Data.List.Basic

/-! SHA-256 on byte sequences: the padding, the message schedule as a window of sixteen words, and the
compression of one block after the other. No program is named here. -/
namespace WppGateway.Sha256

structure Words where
  a : UInt32
  b : UInt32
  c : UInt32
  d : UInt32
  e : UInt32
  f : UInt32
  g : UInt32
  h : UInt32
  deriving DecidableEq, Repr

def initial : Words :=
  ⟨0x6a09e667,0xbb67ae85,0x3c6ef372,0xa54ff53a,0x510e527f,0x9b05688c,0x1f83d9ab,0x5be0cd19⟩

def roundConstants : List UInt32 :=
  [0x428a2f98,0x71374491,0xb5c0fbcf,0xe9b5dba5,0x3956c25b,0x59f111f1,0x923f82a4,0xab1c5ed5,
    0xd807aa98,0x12835b01,0x243185be,0x550c7dc3,0x72be5d74,0x80deb1fe,0x9bdc06a7,0xc19bf174,
    0xe49b69c1,0xefbe4786,0x0fc19dc6,0x240ca1cc,0x2de92c6f,0x4a7484aa,0x5cb0a9dc,0x76f988da,
    0x983e5152,0xa831c66d,0xb00327c8,0xbf597fc7,0xc6e00bf3,0xd5a79147,0x06ca6351,0x14292967,
    0x27b70a85,0x2e1b2138,0x4d2c6dfc,0x53380d13,0x650a7354,0x766a0abb,0x81c2c92e,0x92722c85,
    0xa2bfe8a1,0xa81a664b,0xc24b8b70,0xc76c51a3,0xd192e819,0xd6990624,0xf40e3585,0x106aa070,
    0x19a4c116,0x1e376c08,0x2748774c,0x34b0bcb5,0x391c0cb3,0x4ed8aa4a,0x5b9cca4f,0x682e6ff3,
    0x748f82ee,0x78a5636f,0x84c87814,0x8cc70208,0x90befffa,0xa4506ceb,0xbef9a3f7,0xc67178f2]

def rotr (x n : UInt32) : UInt32 := (x >>> n) ||| (x <<< (32 - n))

def smallSigma0 (x : UInt32) : UInt32 := rotr x 7 ^^^ rotr x 18 ^^^ (x >>> 3)
def smallSigma1 (x : UInt32) : UInt32 := rotr x 17 ^^^ rotr x 19 ^^^ (x >>> 10)
def bigSigma0 (x : UInt32) : UInt32 := rotr x 2 ^^^ rotr x 13 ^^^ rotr x 22
def bigSigma1 (x : UInt32) : UInt32 := rotr x 6 ^^^ rotr x 11 ^^^ rotr x 25
def choose (x y z : UInt32) : UInt32 := (x &&& y) ^^^ (~~~x &&& z)
def majority (x y z : UInt32) : UInt32 := (x &&& y) ^^^ (x &&& z) ^^^ (y &&& z)

def round (s : Words) (k w : UInt32) : Words :=
  let t1 := s.h + bigSigma1 s.e + choose s.e s.f s.g + k + w
  let t2 := bigSigma0 s.a + majority s.a s.b s.c
  ⟨t1 + t2,s.a,s.b,s.c,s.d + t1,s.e,s.f,s.g⟩

def nextWord (window : List UInt32) : UInt32 :=
  smallSigma1 (window.getD 14 0) + window.getD 9 0 + smallSigma0 (window.getD 1 0) + window.headD 0

def rounds : List UInt32 → List UInt32 → Words → Words
  | [],_,s => s
  | k::ks,window,s => rounds ks (window.tail ++ [nextWord window]) (round s k (window.headD 0))

def wordsOf : List UInt8 → List UInt32
  | a::b::c::d::rest => ((a.toUInt32 <<< 24) ||| (b.toUInt32 <<< 16) ||| (c.toUInt32 <<< 8) ||| d.toUInt32)::wordsOf rest
  | _ => []

def compress (s : Words) (block : List UInt8) : Words :=
  let t := rounds roundConstants (wordsOf block) s
  ⟨s.a + t.a,s.b + t.b,s.c + t.c,s.d + t.d,s.e + t.e,s.f + t.f,s.g + t.g,s.h + t.h⟩

def lengthBytes (length : Nat) : List UInt8 :=
  [56,48,40,32,24,16,8,0].map (fun shift => UInt8.ofNat ((8 * length) >>> shift))

def padded (message : List UInt8) : List UInt8 :=
  message ++ 0x80::List.replicate ((119 - message.length % 64) % 64) 0 ++ lengthBytes message.length

def blocks : Nat → List UInt8 → List (List UInt8)
  | 0,_ => []
  | n+1,bytes => bytes.take 64::blocks n (bytes.drop 64)

def wordBytes (w : UInt32) : List UInt8 := [(w >>> 24).toUInt8,(w >>> 16).toUInt8,(w >>> 8).toUInt8,w.toUInt8]

def sum256 (message : List UInt8) : List UInt8 :=
  let bytes := padded message
  let s := (blocks (bytes.length / 64) bytes).foldl compress initial
  [s.a,s.b,s.c,s.d,s.e,s.f,s.g,s.h].flatMap wordBytes

end WppGateway.Sha256
