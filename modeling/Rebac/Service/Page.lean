import Rebac.Numeral
import Rebac.Store.Query

/-
  This file defines pages of a list.

  A page token is the number of elements before the page.
  Numbers have 64 bits, and sums of them wrap.

  Key definitions include:
    * `Page`
    * `Page.readToken`
    * `Page.effectiveSize`
    * `Page.cut`
    * `Page.ofLookup`
-/

namespace Rebac

/- Some elements of a list, and the token of the next page. -/
structure Page (Element : Type) where
  items : List Element := []
  next : Option Bytes := none
  deriving Repr

namespace Page

variable {Element : Type}

/- Reads a token; the empty one stands for the first page. -/
def readToken (token : Bytes) : Except StoreError UInt64 :=
  if token = [] then
    .ok 0
  else
    match Numeral.readSize? token with
    | none => .error (.invalidToken token)
    | some offset => .ok offset

/- The token of the page behind some elements. -/
def token (offset : UInt64) : Bytes :=
  Numeral.ofNat offset.toNat

/- The size of a page; zero stands for one hundred. -/
def effectiveSize (size : UInt64) : UInt64 :=
  if size = 0 then 100 else size

/-
  Cuts a page out of a whole list. A page that ends before it
  begins is taken for one of almost 2^64 elements, which there
  is no room for.
-/
def cut
    (items : List Element)
    (offset size : UInt64) : Except StoreError (Page Element) :=
  if items.length ≤ offset.toNat then
    .ok {}
  else
    let last := min items.length (offset + size).toNat
    if last < offset.toNat then
      .error .oversized
    else
      .ok
        { items := (items.take last).drop offset.toNat
          next :=
            if last < items.length then
              some (Numeral.ofNat last)
            else
              none }

/-
  The window to look up for a page: one more element than
  the page has tells whether there is a next page.
-/
def window (offset size : UInt64) : Window :=
  { limit := size + 1
    offset := offset }

/- The page of the elements that were found in its window. -/
def ofLookup
    (found : List Element)
    (offset size : UInt64) : Page Element :=
  { items := found.take size.toNat
    next :=
      if size.toNat < found.length then
        some (token (offset + size))
      else
        none }

end Page

end Rebac
