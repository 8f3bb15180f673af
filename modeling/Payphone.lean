import Payphone.Attempt
import Payphone.Bytes
import Payphone.Card.Entry
import Payphone.Card.Layout
import Payphone.Card.Report
import Payphone.Card.ServiceCode
import Payphone.Card.Standard
import Payphone.Card.Table
import Payphone.Carrier.Entry
import Payphone.Carrier.Report
import Payphone.Carrier.Table
import Payphone.Catalog
import Payphone.Checksum
import Payphone.CommandLine.Arguments
import Payphone.CommandLine.Command
import Payphone.CommandLine.Number
import Payphone.CommandLine.Run
import Payphone.Disk
import Payphone.Error
import Payphone.Export
import Payphone.FileSystem
import Payphone.FixedWidth
import Payphone.Hex
import Payphone.Json
import Payphone.Labels
import Payphone.Layout
import Payphone.Lcd.AreaCode
import Payphone.Lcd.Packing
import Payphone.Lcd.Report
import Payphone.Lcd.Table
import Payphone.Log
import Payphone.Main
import Payphone.PackedNumber
import Payphone.Path
import Payphone.Revision
import Payphone.Store
import Payphone.TableType
import Payphone.Text
import Payphone.Proofs.Alignment
import Payphone.Proofs.Bits
import Payphone.Proofs.Card.Chain
import Payphone.Proofs.Card.Conversion
import Payphone.Proofs.Card.Editing
import Payphone.Proofs.Card.Fields
import Payphone.Proofs.Card.Payload
import Payphone.Proofs.Card.Report
import Payphone.Proofs.Carrier.Editing
import Payphone.Proofs.Carrier.Payload
import Payphone.Proofs.Carrier.Record
import Payphone.Proofs.Carrier.Replacing
import Payphone.Proofs.Catalog
import Payphone.Proofs.Checksum.Detection
import Payphone.Proofs.Checksum.Period
import Payphone.Proofs.Checksum.Register
import Payphone.Proofs.Checksum.Remainder
import Payphone.Proofs.Checksum.Residue
import Payphone.Proofs.CommandLine.Console
import Payphone.Proofs.CommandLine.Number
import Payphone.Proofs.CommandLine.Runs
import Payphone.Proofs.CommandLine.Saving
import Payphone.Proofs.Decoding
import Payphone.Proofs.Disk
import Payphone.Proofs.FileSystem
import Payphone.Proofs.Hex.Dumping
import Payphone.Proofs.Hex.Reading
import Payphone.Proofs.Lcd.AreaCode
import Payphone.Proofs.Lcd.Assigning
import Payphone.Proofs.Lcd.Detecting
import Payphone.Proofs.Lcd.Editing
import Payphone.Proofs.Lcd.Packing
import Payphone.Proofs.Lcd.Payload
import Payphone.Proofs.Lcd.Repacking
import Payphone.Proofs.Lcd.Report
import Payphone.Proofs.Lcd.Slots
import Payphone.Proofs.Logging.Operations
import Payphone.Proofs.PackedNumber
import Payphone.Proofs.Patches
import Payphone.Proofs.Reader
import Payphone.Proofs.Remapping
import Payphone.Proofs.Restoring
import Payphone.Proofs.Store.Loading
import Payphone.Proofs.Store.Runs
import Payphone.Proofs.Text.Digit
import Payphone.Proofs.Text.Injective
import Payphone.Proofs.Text.Lines
import Payphone.Proofs.Widening
