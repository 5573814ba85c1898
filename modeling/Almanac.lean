import Almanac.Country.Profile
import Almanac.Display.Progress
import Almanac.Logging
import Almanac.Main
import Almanac.Proofs.Holiday.Slots
import Almanac.Proofs.Holiday.Suffix
import Almanac.Proofs.Source.SpanCover
import Almanac.Proofs.Source.TokenLines
import Almanac.Proofs.Source.TokenColumns
import Almanac.Proofs.Strategy.ClassCalls
import Almanac.Proofs.Data.Utf8RoundTrip
import Almanac.Proofs.Data.Base64Forms
import Almanac.Proofs.Text.DecimalDigits
import Almanac.Proofs.Data.JsonLexemes
import Almanac.Proofs.Data.JsonRoundTrip
import Almanac.Proofs.Text.CodePointOrder
import Almanac.Proofs.Time.TimestampRoundTrip
import Almanac.Proofs.Record.EntryRoundTrip
import Almanac.Proofs.Record.RecordRoundTrip
import Almanac.Proofs.Storage.FileTreeUpdates
import Almanac.Proofs.Storage.RecordFileRoundTrip
import Almanac.Proofs.Text.DigitClasses
import Almanac.Proofs.Text.NumberReading
import Almanac.Proofs.Holiday.ReadableDates
import Almanac.Proofs.Registration.CallNumbers
import Almanac.Proofs.Holiday.AnnouncedCatalogs
import Almanac.Proofs.Country.Containment
import Almanac.Proofs.Strategy.ComparedCatalogs
import Almanac.Proofs.Country.ReadingModes
import Almanac.Proofs.Registration.CallSeams
import Almanac.Proofs.Holiday.WrittenDates
import Almanac.Proofs.Source.LiteralText
import Almanac.Proofs.Registration.NamedArguments
import Almanac.Proofs.Registration.WrittenCalls
import Almanac.Proofs.Registration.Idioms
import Almanac.Proofs.Strategy.IdiomFiles
import Almanac.Proofs.Registration.Trailers
import Almanac.Proofs.Source.CommentText
import Almanac.Proofs.Registration.Comments
import Almanac.Proofs.Registration.AccountedLines
import Almanac.Proofs.Registration.CallWindows
import Almanac.Proofs.Source.LiteralPlaces
import Almanac.Proofs.Registration.CountedParentheses
import Almanac.Proofs.Registration.CutLines
import Almanac.Proofs.Registration.BrokenCalls
import Almanac.Proofs.Remote.AnswerFaults
import Almanac.Proofs.Remote.WrappedContent
import Almanac.Proofs.Record.MissingObjects
import Almanac.Proofs.Storage.SpoiledFiles
import Almanac.Proofs.Data.ReadValues
import Almanac.Proofs.Settings.SavedTokens
import Almanac.Proofs.Batch.AnsweredCountries
import Almanac.Proofs.Country.UsableFiles
import Almanac.Proofs.Batch.ConcurrentBatches
import Almanac.Proofs.Batch.CleanValidation
import Almanac.Proofs.Source.AccountedOutlines
import Almanac.Proofs.Source.InsertedLines
import Almanac.Proofs.Batch.StoppedValidation
import Almanac.Proofs.CommandLine.ReadOnlyRuns
import Almanac.Proofs.Country.MetadataComments
import Almanac.Proofs.Holiday.KeyLookup
import Almanac.Proofs.Holiday.ShiftedDates
import Almanac.Proofs.Holiday.WrittenRules
import Almanac.Proofs.Holiday.MonthTokens
import Almanac.Proofs.Holiday.CanonicalKeys
import Almanac.Proofs.Registration.ShapeOrder
import Almanac.Proofs.Source.ClassBases
import Almanac.Proofs.Source.MethodParameters
import Almanac.Proofs.Registration.ArgumentTails
import Almanac.Proofs.Country.SubdivisionTables
import Almanac.Proofs.Country.SupportedValues
import Almanac.Proofs.Source.JoinedTexts
import Almanac.Proofs.Record.AcceptedValues
import Almanac.Proofs.Display.Lifecycle
import Almanac.Proofs.Remote.PermitAccounts
