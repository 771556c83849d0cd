import BarectfParser.Config
import BarectfParser.Types
import BarectfParser.Utf8
import BarectfParser.Parser.Cursor
import BarectfParser.Parser.Reader
import BarectfParser.Parser.Fields
import BarectfParser.Parser.Plan
import BarectfParser.Parser.Parse
import BarectfParser.Parser.Values
import BarectfParser.Parser.Decoder
import BarectfParser.Parser.Refinement
import BarectfParser.Parser.Assertions
import BarectfParser.Parser.Encode
import BarectfParser.Parser.RoundTrip
import BarectfParser.Parser.Soundness
import BarectfParser.Parser.Ids
import BarectfParser.Parser.Accepts
import BarectfParser.Parser.Faults
import BarectfParser.Rollover
