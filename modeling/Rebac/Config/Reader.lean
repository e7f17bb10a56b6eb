import Rebac.Config.Load
import Rebac.Config.Scalar
import Rebac.Yaml.Block

/-
  This file defines the reader that settings are read with
  when the program runs.

  Key definitions include:
    * `Config.simpleReader`
    * `Config.load`
-/

namespace Rebac

namespace Config

/- A reader of simple documents and of the values in them. -/
def simpleReader : Yaml.Reader where
  document? := Yaml.read?
  word? := readWord?
  switch? := readBool?
  rate? := readRate?

/- Loads the settings that a simple document holds. -/
def load
    (origin : Bytes)
    (text : Bytes) : Reading (Except Fault Config) :=
  loadBy simpleReader origin text

end Config

end Rebac
